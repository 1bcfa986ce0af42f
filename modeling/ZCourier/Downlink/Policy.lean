import ZCourier.Go.Values

/-!
# Delivery policies

The retry contract of a message class and its resolution by message type, after
`internal/downlink/policy.go`. `resolve_valid` is the fact the delivery results rest on:
a `DeliveryPolicySet` accepted by `newDeliveryPolicySet` resolves every `MsgID` to a
policy that passes `validateDeliveryPolicy`.
-/

namespace ZCourier.Downlink

open Go

/-- `DefaultDeliveryPolicyName`. -/
def defaultDeliveryPolicyName : GoString := ascii "default"

/-- `DeliveryPolicy`, the resolved retry contract for one message class. -/
structure DeliveryPolicy where
  name : GoString
  maxAttempts : Int
  maxAge : Int
  ackTimeout : Int
  initialRetryDelay : Int
  backoffMultiplier : Float64
  maxRetryDelay : Int
  retryJitter : Int
  deriving DecidableEq

/-- `DeliveryPolicyRule`: one named policy for an inclusive range of `MsgID`s. -/
structure DeliveryPolicyRule where
  policy : DeliveryPolicy
  msgIDMin : UInt32
  msgIDMax : UInt32
  deriving DecidableEq

/-- `DeliveryPolicySet`. -/
structure DeliveryPolicySet where
  defaultPolicy : DeliveryPolicy
  rules : List DeliveryPolicyRule
  byName : List (GoString × DeliveryPolicy)
  deriving DecidableEq

/-- The checked fields of a policy, in the order in which they are checked. -/
inductive PolicyField where
  | name
  | maxAttempts
  | maxAge
  | ackTimeout
  | retryDelay
  | backoffMultiplier
  | maxRetryDelay
  | retryJitter
  deriving DecidableEq

/-- The errors of `NewDeliveryPolicySet`. Rules are numbered from 1, as in the messages. -/
inductive PolicyError where
  | defaultName
  | invalid (policy : GoString) (field : PolicyField)
  | reservedName (rule : Nat)
  | invalidRule (rule : Nat) (policy : GoString) (field : PolicyField)
  | duplicateName (policy : GoString)
  | msgIDMin (policy : GoString)
  | msgIDMax (policy : GoString)
  | overlap (current previous : DeliveryPolicyRule)
  deriving DecidableEq

/-- The characters a policy name may have after its first one. -/
def policyNameByte (char : UInt8) : Bool :=
  char = 0x5F || char = 0x2D || (0x61 ≤ char && char ≤ 0x7A) || (0x30 ≤ char && char ≤ 0x39)

/-- `validDeliveryPolicyName`. -/
def validDeliveryPolicyName : GoString → Bool
  | [] => false
  | first :: rest =>
    rest.length < 64 && 0x61 ≤ first && first ≤ 0x7A && rest.all policyNameByte

/-- `validateDeliveryPolicy`: the first field that is out of range, if there is one. -/
def validateDeliveryPolicy (policy : DeliveryPolicy) : Option PolicyField :=
  if !validDeliveryPolicyName policy.name then some .name
  else if policy.maxAttempts ≤ 0 then some .maxAttempts
  else if policy.maxAge < 0 then some .maxAge
  else if policy.ackTimeout ≤ 0 then some .ackTimeout
  else if policy.initialRetryDelay ≤ 0 then some .retryDelay
  else if policy.backoffMultiplier.isNaN || policy.backoffMultiplier.isInf ||
      !policy.backoffMultiplier.ge (.finite 1) then some .backoffMultiplier
  else if policy.maxRetryDelay < policy.initialRetryDelay then some .maxRetryDelay
  else if policy.retryJitter < 0 then some .retryJitter
  else none

structure DeliveryPolicy.Valid (policy : DeliveryPolicy) : Prop where
  name_ne : policy.name ≠ []
  maxAttempts_pos : 0 < policy.maxAttempts
  maxAge_nonneg : 0 ≤ policy.maxAge
  ackTimeout_pos : 0 < policy.ackTimeout
  initialRetryDelay_pos : 0 < policy.initialRetryDelay
  maxRetryDelay_ge : policy.initialRetryDelay ≤ policy.maxRetryDelay
  retryJitter_nonneg : 0 ≤ policy.retryJitter

theorem validate_delivery_policy_sound {policy : DeliveryPolicy}
    (h : validateDeliveryPolicy policy = none) : policy.Valid := by
  unfold validateDeliveryPolicy at h
  split_ifs at h
  refine ⟨?_, by omega, by omega, by omega, by omega, by omega, by omega⟩
  intro hname
  simp_all [validDeliveryPolicyName]

/-- One pass of the loop of `NewDeliveryPolicySet` over the rules: normalise a rule, check it
and record its name. -/
def addPolicyRule (acc : List DeliveryPolicyRule × List (GoString × DeliveryPolicy))
    (index : Nat) (rule : DeliveryPolicyRule) :
    Except PolicyError (List DeliveryPolicyRule × List (GoString × DeliveryPolicy)) :=
  let name := trimSpace rule.policy.name
  let policy := { rule.policy with name := name }
  if name = defaultDeliveryPolicyName then .error (.reservedName (index + 1))
  else
    match validateDeliveryPolicy policy with
    | some field => .error (.invalidRule (index + 1) name field)
    | none =>
      if acc.2.any fun entry => entry.1 = name then .error (.duplicateName name)
      else if rule.msgIDMin = 0 then .error (.msgIDMin name)
      else
        let msgIDMax := if rule.msgIDMax = 0 then rule.msgIDMin else rule.msgIDMax
        if msgIDMax < rule.msgIDMin then .error (.msgIDMax name)
        else .ok (acc.1 ++ [⟨policy, rule.msgIDMin, msgIDMax⟩], acc.2 ++ [(name, policy)])

/-- The loop of `NewDeliveryPolicySet` over the rules. -/
def addPolicyRules :
    List DeliveryPolicyRule × List (GoString × DeliveryPolicy) → Nat → List DeliveryPolicyRule →
      Except PolicyError (List DeliveryPolicyRule × List (GoString × DeliveryPolicy))
  | acc, _, [] => .ok acc
  | acc, index, rule :: rest =>
    match addPolicyRule acc index rule with
    | .error err => .error err
    | .ok acc => addPolicyRules acc (index + 1) rest

/-- The order in which `NewDeliveryPolicySet` sorts the rules. -/
def policyRuleLe (left right : DeliveryPolicyRule) : Bool :=
  if left.msgIDMin = right.msgIDMin then
    if left.msgIDMax = right.msgIDMax then left.policy.name ≤ right.policy.name
    else left.msgIDMax < right.msgIDMax
  else left.msgIDMin < right.msgIDMin

/-- The first neighbours of a sorted rule list whose ranges overlap. -/
def policyOverlap : List DeliveryPolicyRule → Option PolicyError
  | previous :: current :: rest =>
    if current.msgIDMin ≤ previous.msgIDMax then some (.overlap current previous)
    else policyOverlap (current :: rest)
  | _ => none

/-- The default policy with its name trimmed, or supplied when it is blank. -/
def namedDefaultPolicy (policy : DeliveryPolicy) : DeliveryPolicy :=
  let name := trimSpace policy.name
  { policy with name := if name = [] then defaultDeliveryPolicyName else name }

/-- `NewDeliveryPolicySet`. -/
def newDeliveryPolicySet (defaultPolicy : DeliveryPolicy) (rules : List DeliveryPolicyRule) :
    Except PolicyError DeliveryPolicySet :=
  let defaultPolicy := namedDefaultPolicy defaultPolicy
  if defaultPolicy.name ≠ defaultDeliveryPolicyName then .error .defaultName
  else
    match validateDeliveryPolicy defaultPolicy with
    | some field => .error (.invalid defaultPolicy.name field)
    | none =>
      match addPolicyRules ([], [(defaultPolicy.name, defaultPolicy)]) 0 rules with
      | .error err => .error err
      | .ok (normalized, byName) =>
        let sorted := normalized.mergeSort policyRuleLe
        match policyOverlap sorted with
        | some err => .error err
        | none => .ok ⟨defaultPolicy, sorted, byName⟩

/-- The loop of `DeliveryPolicySet.Resolve`, which stops at the first rule that starts above
the `MsgID`. -/
def resolveRules (defaultPolicy : DeliveryPolicy) (msgID : UInt32) :
    List DeliveryPolicyRule → DeliveryPolicy
  | [] => defaultPolicy
  | rule :: rest =>
    if msgID < rule.msgIDMin then defaultPolicy
    else if msgID ≤ rule.msgIDMax then rule.policy
    else resolveRules defaultPolicy msgID rest

/-- `DeliveryPolicySet.Resolve`. -/
def DeliveryPolicySet.resolve (set : DeliveryPolicySet) (msgID : UInt32) : DeliveryPolicy :=
  resolveRules set.defaultPolicy msgID set.rules

/-- A set that `NewDeliveryPolicySet` returned for some arguments. -/
def DeliveryPolicySet.Accepted (set : DeliveryPolicySet) : Prop :=
  ∃ defaultPolicy rules, newDeliveryPolicySet defaultPolicy rules = .ok set

theorem add_policy_rule_valid
    {acc acc' : List DeliveryPolicyRule × List (GoString × DeliveryPolicy)}
    {index : Nat} {rule : DeliveryPolicyRule} (h : addPolicyRule acc index rule = .ok acc')
    (hacc : ∀ r ∈ acc.1, validateDeliveryPolicy r.policy = none) :
    ∀ r ∈ acc'.1, validateDeliveryPolicy r.policy = none := by
  unfold addPolicyRule at h
  simp only at h
  split at h
  · cases h
  · split at h
    · cases h
    · next hvalid =>
      split_ifs at h <;> cases h
      all_goals
        intro r hr
        rcases List.mem_append.mp hr with hr | hr
        · exact hacc r hr
        · rw [List.mem_singleton] at hr
          subst hr
          exact hvalid

theorem add_policy_rules_valid {rules : List DeliveryPolicyRule} :
    ∀ {acc acc' : List DeliveryPolicyRule × List (GoString × DeliveryPolicy)} {index : Nat},
      addPolicyRules acc index rules = .ok acc' →
      (∀ r ∈ acc.1, validateDeliveryPolicy r.policy = none) →
      ∀ r ∈ acc'.1, validateDeliveryPolicy r.policy = none := by
  induction rules with
  | nil =>
    intro acc acc' index h hacc
    cases h
    exact hacc
  | cons rule rest ih =>
    intro acc acc' index h hacc
    simp only [addPolicyRules] at h
    split at h
    · cases h
    · next hrule => exact ih h (add_policy_rule_valid hrule hacc)

def DeliveryPolicySet.Contains (set : DeliveryPolicySet) (policy : DeliveryPolicy) : Prop :=
  policy = set.defaultPolicy ∨ ∃ rule ∈ set.rules, policy = rule.policy

theorem DeliveryPolicySet.contains_resolve (set : DeliveryPolicySet) (msgID : UInt32) :
    set.Contains (set.resolve msgID) := by
  obtain ⟨defaultPolicy, rules, byName⟩ := set
  unfold DeliveryPolicySet.resolve DeliveryPolicySet.Contains
  induction rules with
  | nil => exact .inl rfl
  | cons rule rest ih =>
    simp only [resolveRules]
    split_ifs
    · exact .inl rfl
    · exact .inr ⟨rule, by simp, rfl⟩
    · rcases ih with hdefault | ⟨rule', hrule', heq⟩
      · exact .inl hdefault
      · exact .inr ⟨rule', by simp [hrule'], heq⟩

theorem DeliveryPolicySet.Accepted.contains_valid {set : DeliveryPolicySet} (h : set.Accepted)
    {policy : DeliveryPolicy} (hpolicy : set.Contains policy) :
    validateDeliveryPolicy policy = none := by
  obtain ⟨defaultPolicy, rules, h⟩ := h
  unfold newDeliveryPolicySet at h
  simp only at h
  split at h
  · cases h
  · split at h
    · cases h
    · next hdefault =>
      split at h
      · cases h
      · next hrules =>
        split at h
        · cases h
        · cases h
          rcases hpolicy with rfl | ⟨rule, hrule, rfl⟩
          · exact hdefault
          · exact add_policy_rules_valid hrules (by simp) rule (List.mem_mergeSort.mp hrule)

theorem DeliveryPolicySet.Accepted.resolve_valid {set : DeliveryPolicySet} (h : set.Accepted)
    (msgID : UInt32) : validateDeliveryPolicy (set.resolve msgID) = none :=
  h.contains_valid (set.contains_resolve msgID)

def fiveAttempts : DeliveryPolicy where
  name := defaultDeliveryPolicyName
  maxAttempts := 5
  maxAge := 0
  ackTimeout := 30 * second
  initialRetryDelay := 30 * second
  backoffMultiplier := .finite 1
  maxRetryDelay := 30 * second
  retryJitter := 0

theorem five_attempts_accepted : DeliveryPolicySet.Accepted
    ⟨fiveAttempts, [], [(defaultDeliveryPolicyName, fiveAttempts)]⟩ :=
  ⟨fiveAttempts, [], by decide +kernel⟩

end ZCourier.Downlink
