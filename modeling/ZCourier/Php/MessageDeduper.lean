import ZCourier.Go.Strconv

/-!
# De-duplication in the PHP SDK

`MessageDeduper` (`sdk/php/src/Client/MessageDeduper.php`). Its entries are the keys of a PHP array,
which keeps the order in which keys were added. PHP turns a string that is the decimal text of an
integer into that integer when it is used as a key.
-/

namespace ZCourier.Php

open Go

inductive ArrayKey where
  | integer (n : Int)
  | text (text : GoString)
  deriving DecidableEq

/-- The key a string is used as. -/
def arrayKey (text : GoString) : ArrayKey :=
  match parseInt text with
  | some n => if formatInt n = text then .integer n else .text text
  | none => .text text

/-- `MessageDeduper`: its capacity and the keys of its entries, the oldest first. -/
structure MessageDeduper where
  capacity : Int
  entries : List ArrayKey

namespace MessageDeduper

def new (capacity : Int) : MessageDeduper := ⟨capacity, []⟩

/-- `unset($this->entries[$messageId])`. -/
def unset (deduper : MessageDeduper) (key : ArrayKey) : MessageDeduper :=
  { deduper with entries := deduper.entries.erase key }

/-- `$this->entries[$messageId] = true`, for a key that is not set. -/
def add (deduper : MessageDeduper) (key : ArrayKey) : MessageDeduper :=
  { deduper with entries := deduper.entries ++ [key] }

/-- `mark`. -/
def mark (deduper : MessageDeduper) (messageId : GoString) : MessageDeduper :=
  let marked := (deduper.unset (arrayKey messageId)).add (arrayKey messageId)
  if marked.entries.length ≤ marked.capacity then marked
  else
    match marked.entries.head? with
    | none => marked
    | some oldest => marked.unset oldest

end MessageDeduper

end ZCourier.Php
