import ZCourier.Go.Strconv
import ZCourier.Library.Search

/-!
# Expansion of environment placeholders

`expandEnvPlaceholders` of `internal/config/config.go`, the pass over the text of a configuration
file before it is parsed as YAML. `expandFrom` is its loop; the environment is a function.

`Cut` says how a text is read: stretches without an opener, each followed by a placeholder that ends
at the next closing brace, and a tail. `env_expansion_single_pass` says what the expansion makes of
the one cut of a text.
-/

namespace ZCourier.Config

open Go Library

/-! ## The code -/

/-- The text that opens a placeholder, a dollar sign and a brace. -/
def opener : GoString := [0x24, 0x7B]

/-- The brace that closes a placeholder. -/
def closer : UInt8 := 0x7D

/-- The errors of `expandEnvPlaceholders`: an opener without a closing brace, with its byte
position, a name that is not valid, and the sorted names of the variables that are not set. -/
inductive EnvError where
  | unterminated (start : Nat)
  | invalid (name : GoString)
  | missing (names : List GoString)

/-- A letter or an underscore. -/
def isNameStart (char : UInt8) : Bool :=
  char = 0x5F || (0x41 ≤ char && char ≤ 0x5A) || (0x61 ≤ char && char ≤ 0x7A)

/-- The loop of `validEnvPlaceholderName` from an index on. -/
def validNameFrom (index : Nat) : GoString → Bool
  | [] => true
  | char :: rest =>
    if isNameStart char then validNameFrom (index + 1) rest
    else if 0 < index && isDigit char then validNameFrom (index + 1) rest
    else false

/-- `validEnvPlaceholderName`. -/
def validEnvPlaceholderName (name : GoString) : Bool :=
  if name = [] then false else validNameFrom 0 name

/-- `os.LookupEnv`. -/
abbrev LookupEnv := GoString → Option GoString

/-- `text[low:high]`. -/
def between (text : GoString) (low high : Nat) : GoString := (text.take high).drop low

/-- The loop of `expandEnvPlaceholders`, with the builder and the keys of `missing` at its end. -/
def expandFrom (lookupEnv : LookupEnv) (text : GoString) (offset : Nat) (builder : GoString)
    (missing : List GoString) : Except EnvError (GoString × List GoString) :=
  match index opener (text.drop offset) with
  | none => .ok (builder ++ text.drop offset, missing)
  | some found =>
    let start := found + offset
    match _ : index [closer] (text.drop (start + 2)) with
    | none => .error (.unterminated start)
    | some found =>
      let stop := found + (start + 2)
      let name := between text (start + 2) stop
      if !validEnvPlaceholderName name then .error (.invalid name)
      else
        let builder := builder ++ between text offset start
        match lookupEnv name with
        | some value => expandFrom lookupEnv text (stop + 1) (builder ++ value) missing
        | none => expandFrom lookupEnv text (stop + 1) builder (missing.insert name)
termination_by text.length - offset
decreasing_by
  -- the closing brace is in the text, behind the offset
  all_goals
    have hbound := index_bound ‹index [closer] _ = some _›
    simp only [List.length_drop, List.length_singleton] at hbound
    omega

/-- `expandEnvPlaceholders`. -/
def expandEnvPlaceholders (lookupEnv : LookupEnv) (data : GoString) : Except EnvError GoString :=
  if ¬ opener <:+: data then .ok data
  else
    match expandFrom lookupEnv data 0 [] [] with
    | .error err => .error err
    | .ok (builder, missing) =>
      if 0 < missing.length then .error (.missing (missing.mergeSort fun a b => a ≤ b))
      else .ok builder

/-! ## How a text is read -/

/-- The placeholders of a text: each with the stretch before it, and the tail behind the last one.
The tail has no opener, or one that no brace closes. -/
inductive Cut : GoString → List (GoString × GoString) → GoString → Prop
  | plain {text : GoString} : ¬ opener <:+: text → Cut text [] text
  | unclosed {front rest : GoString} : ¬ opener <:+: front → closer ∉ rest →
      Cut (front ++ opener ++ rest) [] (front ++ opener ++ rest)
  | placeholder {front name rest tail : GoString} {pieces : List (GoString × GoString)} :
      ¬ opener <:+: front → closer ∉ name → Cut rest pieces tail →
      Cut (front ++ opener ++ (name ++ closer :: rest)) ((front, name) :: pieces) tail

/-- A name is a letter or an underscore, followed by letters, underscores and digits. -/
def ValidName (name : GoString) : Prop :=
  ∃ first rest, name = first :: rest ∧ isNameStart first = true ∧
    ∀ char ∈ rest, isNameStart char = true ∨ isDigit char = true

/-- Something is wrong with a text: an opener is not closed, or encloses something that is not a
name, or the name of a variable that is not set. -/
def Fails (lookupEnv : LookupEnv) (pieces : List (GoString × GoString)) (tail : GoString) : Prop :=
  opener <:+: tail ∨ ∃ piece ∈ pieces, ¬ ValidName piece.2 ∨ lookupEnv piece.2 = none

/-- The text with the values in place of the placeholders. -/
def substitute (lookupEnv : LookupEnv) (pieces : List (GoString × GoString)) (tail : GoString) :
    GoString :=
  pieces.flatMap (fun piece => piece.1 ++ (lookupEnv piece.2).getD []) ++ tail

/-! ### Names -/

theorem validNameFrom_pos {name : GoString} {index : Nat} (h : 0 < index) :
    validNameFrom index name = true ↔
      ∀ char ∈ name, isNameStart char = true ∨ isDigit char = true := by
  induction name generalizing index with
  | nil => exact ⟨fun _ => nofun, fun _ => rfl⟩
  | cons char rest ih =>
    rw [List.forall_mem_cons, ← ih (Nat.succ_pos index), validNameFrom]
    cases isNameStart char <;> cases isDigit char <;> simp [h]

theorem valid_name_iff (name : GoString) :
    validEnvPlaceholderName name = true ↔ ValidName name := by
  unfold validEnvPlaceholderName ValidName
  cases name with
  | nil => exact ⟨nofun, fun ⟨_, _, hname, _⟩ => nomatch hname⟩
  | cons first rest =>
    rw [if_neg (List.cons_ne_nil first rest), validNameFrom]
    constructor
    · intro hvalid
      split at hvalid
      · next hfirst => exact ⟨first, rest, rfl, hfirst, (validNameFrom_pos Nat.one_pos).mp hvalid⟩
      · cases hvalid
    · rintro ⟨first, rest, hname, hfirst, hrest⟩
      cases hname
      rw [if_pos hfirst]
      exact (validNameFrom_pos Nat.one_pos).mpr hrest

instance (name : GoString) : Decidable (ValidName name) :=
  decidable_of_iff _ (valid_name_iff name)

/-! ### Openers -/

theorem index_opener {front : GoString} (h : ¬ opener <:+: front) (back : GoString) :
    index opener (front ++ opener ++ back) = some front.length := by
  induction front with
  | nil =>
    have hstart : opener <+: 0x24 :: 0x7B :: back := List.prefix_append opener back
    show index opener (0x24 :: 0x7B :: back) = some 0
    rw [index, if_pos hstart]
  | cons a front ih =>
    obtain ⟨hstart, hfront⟩ := not_or.mp (fun hinfix => h (List.infix_cons_iff.mpr hinfix))
    -- the stretch and its successor could only form an opener across the end of the stretch
    have hfirst : ¬ opener <+: a :: (front ++ opener ++ back) := by
      cases front with
      | nil => exact fun hopener => by simp [opener] at hopener
      | cons b front =>
        intro hopener
        refine hstart ?_
        simp only [opener, List.cons_append, List.cons_prefix_cons] at hopener ⊢
        exact ⟨hopener.1, hopener.2.1, List.nil_prefix⟩
    rw [List.cons_append, List.cons_append, index, if_neg hfirst, ih hfront]
    rfl

/-! ### Cuts -/

theorem cut_exists (text : GoString) : ∃ pieces tail, Cut text pieces tail := by
  induction hn : text.length using Nat.strong_induction_on generalizing text with
  | h n ih =>
    cases hindex : index opener text with
    | none => exact ⟨[], text, .plain (index_eq_none.mp hindex)⟩
    | some i =>
      obtain ⟨front, back, rfl, -, hfront⟩ := index_eq_some hindex
      replace hfront := hfront (by decide)
      by_cases hclosed : closer ∈ back
      · obtain ⟨name, rest, rfl, hname⟩ := List.eq_append_cons_of_mem hclosed
        have hlength : rest.length < n := by
          simp only [List.length_append, List.length_cons] at hn
          omega
        obtain ⟨pieces, tail, hcut⟩ := ih rest.length hlength rest rfl
        exact ⟨_, tail, .placeholder hfront hname hcut⟩
      · exact ⟨[], _, .unclosed hfront hclosed⟩

theorem front_unique {front front' back back' : GoString} (h : ¬ opener <:+: front)
    (h' : ¬ opener <:+: front') (heq : front ++ opener ++ back = front' ++ opener ++ back') :
    front = front' ∧ back = back' := by
  have hlength : front.length = front'.length := by
    have hindex := index_opener h back
    rw [heq, index_opener h' back'] at hindex
    exact (Option.some.inj hindex).symm
  rw [List.append_assoc, List.append_assoc] at heq
  obtain ⟨rfl, hrest⟩ := List.append_inj heq hlength
  exact ⟨rfl, List.append_cancel_left hrest⟩

theorem name_unique {name name' rest rest' : GoString} (h : closer ∉ name) (h' : closer ∉ name')
    (heq : name ++ closer :: rest = name' ++ closer :: rest') : name = name' ∧ rest = rest' := by
  have hindex := @index_singleton _ _ _ _ rest h
  rw [heq, index_singleton h'] at hindex
  obtain ⟨rfl, hrest⟩ := List.append_inj heq (Option.some.inj hindex).symm
  exact ⟨rfl, (List.cons.inj hrest).2⟩

theorem opener_within (front back : GoString) : opener <:+: front ++ opener ++ back :=
  ⟨front, back, rfl⟩

theorem closer_mem (name rest : GoString) : closer ∈ name ++ closer :: rest :=
  List.mem_append_right _ List.mem_cons_self

theorem cut_unique {text tail tail' : GoString} {pieces pieces' : List (GoString × GoString)}
    (h : Cut text pieces tail) (h' : Cut text pieces' tail') : pieces = pieces' ∧ tail = tail' := by
  induction h generalizing pieces' tail' with
  | plain hplain =>
    cases h' with
    | plain _ => exact ⟨rfl, rfl⟩
    | unclosed _ _ => exact absurd (opener_within ..) hplain
    | placeholder _ _ _ => exact absurd (opener_within ..) hplain
  | @unclosed front rest hfront hrest =>
    generalize htext : front ++ opener ++ rest = text at h' ⊢
    cases h' with
    | plain hplain => exact absurd (htext ▸ opener_within ..) hplain
    | unclosed _ _ => exact ⟨rfl, rfl⟩
    | placeholder hfront' _ _ =>
      obtain ⟨-, rfl⟩ := front_unique hfront hfront' htext
      exact absurd (closer_mem ..) hrest
  | @placeholder front name rest tail pieces hfront hname _ ih =>
    generalize htext : front ++ opener ++ (name ++ closer :: rest) = text at h'
    cases h' with
    | plain hplain => exact absurd (htext ▸ opener_within ..) hplain
    | unclosed hfront' hrest =>
      obtain ⟨-, rfl⟩ := front_unique hfront hfront' htext
      exact absurd (closer_mem ..) hrest
    | placeholder hfront' hname' hcut =>
      obtain ⟨rfl, hback⟩ := front_unique hfront hfront' htext
      obtain ⟨rfl, rfl⟩ := name_unique hname hname' hback
      obtain ⟨rfl, rfl⟩ := ih hcut
      exact ⟨rfl, rfl⟩

/-! ## What the loop does -/

section Loop

variable {lookupEnv : LookupEnv} {done front name rest builder : GoString} {missing : List GoString}

theorem drop_opener : (done ++ (front ++ opener ++ rest)).drop (front.length + done.length + 2) =
    rest := by
  have hlength : front.length + done.length + 2 = (done ++ (front ++ opener)).length := by
    simp only [List.length_append, opener, List.length_cons, List.length_nil]
    omega
  rw [hlength, ← List.append_assoc done (front ++ opener) rest, List.drop_left]

theorem index_closer_none (h : closer ∉ rest) : index [closer] rest = none := by
  refine index_eq_none.mpr fun hinfix => h ?_
  exact hinfix.subset (List.mem_singleton_self closer)

theorem between_front : between (done ++ (front ++ rest)) done.length (front.length + done.length) =
    front := by
  have hlength : front.length + done.length = (done ++ front).length := by
    rw [List.length_append, Nat.add_comm]
  rw [between, ← List.append_assoc, hlength, List.take_left, List.drop_left]

theorem expandFrom_plain (h : ¬ opener <:+: rest) :
    expandFrom lookupEnv (done ++ rest) done.length builder missing =
      .ok (builder ++ rest, missing) := by
  rw [expandFrom]
  simp only [List.drop_left, index_eq_none.mpr h]

theorem expandFrom_unclosed (hfront : ¬ opener <:+: front) (hrest : closer ∉ rest) :
    expandFrom lookupEnv (done ++ (front ++ opener ++ rest)) done.length builder missing =
      .error (.unterminated (front.length + done.length)) := by
  rw [expandFrom]
  simp only [List.drop_left, index_opener hfront]
  split
  · rfl
  · next hclosed =>
    rw [drop_opener, index_closer_none hrest] at hclosed
    cases hclosed

theorem expandFrom_placeholder (hfront : ¬ opener <:+: front) (hname : closer ∉ name) :
    expandFrom lookupEnv (done ++ (front ++ opener ++ (name ++ closer :: rest))) done.length builder
        missing =
      if ¬ ValidName name then .error (.invalid name)
      else
        expandFrom lookupEnv ((done ++ (front ++ opener ++ (name ++ [closer]))) ++ rest)
          (done ++ (front ++ opener ++ (name ++ [closer]))).length
          (builder ++ (front ++ (lookupEnv name).getD []))
          (if lookupEnv name = none then missing.insert name else missing) := by
  have htext : (done ++ (front ++ opener ++ (name ++ [closer]))) ++ rest =
      done ++ (front ++ opener ++ (name ++ closer :: rest)) := by
    simp only [List.append_assoc, List.singleton_append]
  have hslice : between (done ++ (front ++ opener ++ (name ++ closer :: rest)))
      (front.length + done.length + 2) (name.length + (front.length + done.length + 2)) = name := by
    have hopener : front.length + done.length + 2 = (done ++ (front ++ opener)).length := by
      simp only [List.length_append, opener, List.length_cons, List.length_nil]
      omega
    rw [hopener, ← List.append_assoc]
    exact between_front
  have hstop : name.length + (front.length + done.length + 2) + 1 =
      (done ++ (front ++ opener ++ (name ++ [closer]))).length := by
    simp only [List.length_append, opener, List.length_cons, List.length_nil]
    omega
  have hstretch : between (done ++ (front ++ opener ++ (name ++ closer :: rest))) done.length
      (front.length + done.length) = front := by
    rw [List.append_assoc front]
    exact between_front
  rw [expandFrom]
  simp only [List.drop_left, index_opener hfront]
  split
  · next hclosed =>
    rw [drop_opener, index_singleton hname] at hclosed
    cases hclosed
  · next found hclosed =>
    rw [drop_opener, index_singleton hname] at hclosed
    obtain rfl := Option.some.inj hclosed
    rw [hslice, hstretch, hstop, htext]
    by_cases hvalid : ValidName name
    · rw [(valid_name_iff name).mpr hvalid, if_neg (not_not.mpr hvalid)]
      cases lookupEnv name with
      | none => simp
      | some value => simp [List.append_assoc]
    · have hinvalid : validEnvPlaceholderName name = false :=
        Bool.eq_false_iff.mpr fun h => hvalid ((valid_name_iff name).mp h)
      rw [hinvalid, if_pos hvalid]
      rfl

end Loop

def missingAfter (lookupEnv : LookupEnv) (pieces : List (GoString × GoString))
    (missing : List GoString) : List GoString :=
  pieces.foldl (fun missing piece =>
    if lookupEnv piece.2 = none then missing.insert piece.2 else missing) missing

section Expansion

variable {lookupEnv : LookupEnv} {text tail : GoString} {pieces : List (GoString × GoString)}

theorem mem_missingAfter {missing : List GoString} {name : GoString} :
    name ∈ missingAfter lookupEnv pieces missing ↔
      name ∈ missing ∨ lookupEnv name = none ∧ ∃ piece ∈ pieces, piece.2 = name := by
  induction pieces generalizing missing with
  | nil => simp [missingAfter]
  | cons piece pieces ih =>
    rw [missingAfter, List.foldl_cons, ← missingAfter, ih]
    by_cases hnone : lookupEnv piece.2 = none
    · simp only [if_pos hnone, List.mem_insert_iff, List.exists_mem_cons_iff]
      constructor
      · rintro ((rfl | hold) | hlater)
        · exact .inr ⟨hnone, .inl rfl⟩
        · exact .inl hold
        · exact .inr ⟨hlater.1, .inr hlater.2⟩
      · rintro (hold | ⟨hname, rfl | hlater⟩)
        · exact .inl (.inr hold)
        · exact .inl (.inl rfl)
        · exact .inr ⟨hname, hlater⟩
    · simp only [if_neg hnone, List.exists_mem_cons_iff]
      refine or_congr_right (and_congr_right fun hname => ?_)
      exact ⟨.inr, fun h => h.resolve_left fun heq => hnone (heq ▸ hname)⟩

theorem expandFrom_ok (lookupEnv : LookupEnv) (h : Cut text pieces tail)
    (htail : ¬ opener <:+: tail)
    (hnames : ∀ piece ∈ pieces, ValidName piece.2) (done builder : GoString)
    (missing : List GoString) :
    expandFrom lookupEnv (done ++ text) done.length builder missing =
      .ok (builder ++ substitute lookupEnv pieces tail, missingAfter lookupEnv pieces missing) := by
  induction h generalizing done builder missing with
  | plain hplain => exact expandFrom_plain hplain
  | unclosed _ _ => exact absurd (opener_within ..) htail
  | @placeholder front name rest tail pieces hfront hname _ ih =>
    obtain ⟨hvalid, hlater⟩ := List.forall_mem_cons.mp hnames
    rw [expandFrom_placeholder hfront hname, if_neg (not_not.mpr hvalid), ih htail hlater]
    simp only [substitute, List.flatMap_cons, List.append_assoc]
    rfl

theorem expandFrom_error (lookupEnv : LookupEnv) (h : Cut text pieces tail)
    (hwrong : opener <:+: tail ∨ ∃ piece ∈ pieces, ¬ ValidName piece.2) (done builder : GoString)
    (missing : List GoString) :
    ∃ err, expandFrom lookupEnv (done ++ text) done.length builder missing = .error err := by
  induction h generalizing done builder missing with
  | plain hplain =>
    rcases hwrong with hopener | ⟨_, hmem, _⟩
    · exact absurd hopener hplain
    · cases hmem
  | unclosed hfront hrest => exact ⟨_, expandFrom_unclosed hfront hrest⟩
  | @placeholder front name rest tail pieces hfront hname _ ih =>
    rw [expandFrom_placeholder hfront hname]
    split
    · exact ⟨_, rfl⟩
    · next hvalid =>
      refine ih ?_ _ _ _
      rcases hwrong with hopener | ⟨piece, hmem, hinvalid⟩
      · exact .inl hopener
      · rcases List.mem_cons.mp hmem with rfl | hlater
        · exact absurd hinvalid hvalid
        · exact .inr ⟨piece, hlater, hinvalid⟩

theorem Cut.of_plain (h : Cut text pieces tail) (hplain : ¬ opener <:+: text) :
    pieces = [] ∧ tail = text := by
  obtain ⟨rfl, rfl⟩ := cut_unique h (.plain hplain)
  exact ⟨rfl, rfl⟩

theorem expand_of_plain (lookupEnv : LookupEnv) (hplain : ¬ opener <:+: text) :
    expandEnvPlaceholders lookupEnv text = .ok text := by
  rw [expandEnvPlaceholders, if_pos hplain]

theorem expand_ok (h : Cut text pieces tail) (hok : ¬ Fails lookupEnv pieces tail) :
    expandEnvPlaceholders lookupEnv text = .ok (substitute lookupEnv pieces tail) := by
  obtain ⟨htail, hpieces⟩ := not_or.mp hok
  have hpiece : ∀ piece ∈ pieces, ValidName piece.2 ∧ lookupEnv piece.2 ≠ none := by
    intro piece hmem
    have hnot := not_or.mp fun hwrong => hpieces ⟨piece, hmem, hwrong⟩
    exact ⟨not_not.mp hnot.1, hnot.2⟩
  by_cases hplain : opener <:+: text
  · have hmissing : missingAfter lookupEnv pieces [] = [] := by
      refine List.eq_nil_iff_forall_not_mem.mpr fun name hmem => ?_
      rcases mem_missingAfter.mp hmem with hnil | ⟨hnone, piece, hpieceMem, rfl⟩
      · cases hnil
      · exact (hpiece piece hpieceMem).2 hnone
    have hloop := expandFrom_ok lookupEnv h htail
      (fun piece hmem => (hpiece piece hmem).1) [] [] []
    rw [hmissing] at hloop
    rw [expandEnvPlaceholders, if_neg (not_not.mpr hplain)]
    replace hloop : expandFrom lookupEnv text 0 [] [] =
      .ok (substitute lookupEnv pieces tail, []) :=
      hloop
    rw [hloop]
    rfl
  · obtain ⟨rfl, rfl⟩ := h.of_plain hplain
    exact expand_of_plain lookupEnv hplain

theorem expand_error (h : Cut text pieces tail) (hfails : Fails lookupEnv pieces tail) :
    ∃ err, expandEnvPlaceholders lookupEnv text = .error err := by
  have hopener : opener <:+: text := by
    by_contra hplain
    obtain ⟨rfl, rfl⟩ := h.of_plain hplain
    rcases hfails with hopener | ⟨_, hmem, _⟩
    · exact hplain hopener
    · cases hmem
  rw [expandEnvPlaceholders, if_neg (not_not.mpr hopener)]
  by_cases hwrong : opener <:+: tail ∨ ∃ piece ∈ pieces, ¬ ValidName piece.2
  · obtain ⟨err, hloop⟩ := expandFrom_error lookupEnv h hwrong [] [] []
    replace hloop : expandFrom lookupEnv text 0 [] [] = .error err := hloop
    rw [hloop]
    exact ⟨err, rfl⟩
  · obtain ⟨htail, hpieces⟩ := not_or.mp hwrong
    have hnames : ∀ piece ∈ pieces, ValidName piece.2 := fun piece hmem =>
      not_not.mp fun hinvalid => hpieces ⟨piece, hmem, hinvalid⟩
    obtain ⟨piece, hmem, hnone⟩ : ∃ piece ∈ pieces, lookupEnv piece.2 = none := by
      rcases hfails with hopener | ⟨piece, hmem, hinvalid | hnone⟩
      · exact absurd hopener htail
      · exact absurd (hnames piece hmem) hinvalid
      · exact ⟨piece, hmem, hnone⟩
    have hmissing : piece.2 ∈ missingAfter lookupEnv pieces [] :=
      mem_missingAfter.mpr (.inr ⟨hnone, piece, hmem, rfl⟩)
    have hloop := expandFrom_ok lookupEnv h htail hnames [] [] []
    replace hloop : expandFrom lookupEnv text 0 [] [] =
      .ok (substitute lookupEnv pieces tail, missingAfter lookupEnv pieces []) := hloop
    rw [hloop]
    simp only [if_pos (List.length_pos_of_mem hmissing)]
    exact ⟨_, rfl⟩

/-- The expansion is a single pass. For every text and environment, the text has one cut at its
placeholders; the expansion fails where an opener of the cut is not closed, or encloses something
that is not a name, or the name of a variable that is not set, and only there; otherwise it gives
the text with the values in place of the placeholders, the values and the text between them as
they are. A text without openers is unchanged. -/
theorem env_expansion_single_pass (lookupEnv : LookupEnv) (text : GoString) :
    (∃ pieces tail, Cut text pieces tail ∧
      (∀ pieces' tail', Cut text pieces' tail' → pieces' = pieces ∧ tail' = tail) ∧
      ((∃ err, expandEnvPlaceholders lookupEnv text = .error err) ↔ Fails lookupEnv pieces tail) ∧
      (¬ Fails lookupEnv pieces tail →
        expandEnvPlaceholders lookupEnv text = .ok (substitute lookupEnv pieces tail))) ∧
    (¬ opener <:+: text → expandEnvPlaceholders lookupEnv text = .ok text) := by
  refine ⟨?_, expand_of_plain lookupEnv⟩
  obtain ⟨pieces, tail, hcut⟩ := cut_exists text
  refine ⟨pieces, tail, hcut, fun _ _ hcut' => cut_unique hcut' hcut, ⟨?_, expand_error hcut⟩,
    expand_ok hcut⟩
  rintro ⟨err, herr⟩
  by_contra hok
  rw [expand_ok hcut hok] at herr
  cases herr

end Expansion

end ZCourier.Config
