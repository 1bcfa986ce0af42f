import ZCourier.Library.Ranges
import ZCourier.Library.Sorting
import ZCourier.Downlink.Policy

/-!
# Which delivery policies are accepted and resolved

`NewDeliveryPolicySet` sorts the rules by their ranges and compares neighbours only, and `Resolve`
stops at the first rule that starts above the `MsgID`. `delivery_policies_exact` is that this is as
good as comparing all pairs of rules and trying all of them.
-/

namespace ZCourier.Downlink

open Go Library

namespace DeliveryPolicyRule

/-- The rule's policy with its name trimmed. -/
def named (rule : DeliveryPolicyRule) : DeliveryPolicy :=
  { rule.policy with name := trimSpace rule.policy.name }

/-- The end of the rule's range; a zero maximum means the minimum. -/
def last (rule : DeliveryPolicyRule) : UInt32 :=
  if rule.msgIDMax = 0 then rule.msgIDMin else rule.msgIDMax

/-- The rule's range contains the `MsgID`. -/
def Covers (rule : DeliveryPolicyRule) (msgID : UInt32) : Prop :=
  Within msgIDMin last rule msgID

instance (rule : DeliveryPolicyRule) (msgID : UInt32) : Decidable (rule.Covers msgID) :=
  inferInstanceAs (Decidable (_ ∧ _))

theorem covers_iff {rule : DeliveryPolicyRule} {msgID : UInt32} :
    (decide (rule.msgIDMin ≤ msgID) && decide (msgID ≤ rule.last)) = true ↔
      rule.Covers msgID := by
  simp [Covers, Within]

/-- The rule as `NewDeliveryPolicySet` keeps it. -/
def normalized (rule : DeliveryPolicyRule) : DeliveryPolicyRule :=
  ⟨rule.named, rule.msgIDMin, rule.last⟩

/-- What a rule must satisfy by itself. -/
structure WellFormed (rule : DeliveryPolicyRule) : Prop where
  reserved : rule.named.name ≠ defaultDeliveryPolicyName
  valid : validateDeliveryPolicy rule.named = none
  positive : 0 < rule.msgIDMin
  range : rule.msgIDMin ≤ rule.last

end DeliveryPolicyRule

/-- The default policy and rules that make up a set. -/
structure Acceptable (defaultPolicy : DeliveryPolicy) (rules : List DeliveryPolicyRule) :
    Prop where
  name : trimSpace defaultPolicy.name = [] ∨
    trimSpace defaultPolicy.name = defaultDeliveryPolicyName
  valid : validateDeliveryPolicy (namedDefaultPolicy defaultPolicy) = none
  wellFormed : ∀ rule ∈ rules, rule.WellFormed
  names : (rules.map fun rule => rule.named.name).Nodup
  disjoint : rules.Pairwise fun left right => ¬∃ msgID, left.Covers msgID ∧ right.Covers msgID

/-! ## Collecting the rules -/

section Rules

variable {acc acc' : List DeliveryPolicyRule × List (GoString × DeliveryPolicy)} {index : Nat}
  {rule : DeliveryPolicyRule} {rules : List DeliveryPolicyRule}

/-- What the loop has collected after some more rules. -/
def withRules (acc : List DeliveryPolicyRule × List (GoString × DeliveryPolicy))
    (rules : List DeliveryPolicyRule) :
    List DeliveryPolicyRule × List (GoString × DeliveryPolicy) :=
  (acc.1 ++ rules.map DeliveryPolicyRule.normalized,
    acc.2 ++ rules.map fun rule => (rule.named.name, rule.named))

theorem add_policy_rule_eq :
    addPolicyRule acc index rule =
      if rule.named.name = defaultDeliveryPolicyName then .error (.reservedName (index + 1))
      else
        match validateDeliveryPolicy rule.named with
        | some field => .error (.invalidRule (index + 1) rule.named.name field)
        | none =>
          if acc.2.any fun entry => entry.1 = rule.named.name then
            .error (.duplicateName rule.named.name)
          else if rule.msgIDMin = 0 then .error (.msgIDMin rule.named.name)
          else if rule.last < rule.msgIDMin then .error (.msgIDMax rule.named.name)
          else .ok (withRules acc [rule]) :=
  rfl

theorem add_policy_rule_ok :
    addPolicyRule acc index rule = .ok acc' ↔
      rule.WellFormed ∧ rule.named.name ∉ acc.2.map Prod.fst ∧ acc' = withRules acc [rule] := by
  have hany : (acc.2.any fun entry => entry.1 = rule.named.name) = true ↔
      rule.named.name ∈ acc.2.map Prod.fst := by
    simp only [List.any_eq_true, decide_eq_true_eq, List.mem_map]
  rw [add_policy_rule_eq]
  constructor
  · intro h
    split at h
    · cases h
    next hname =>
    split at h
    · cases h
    next hvalid =>
    split_ifs at h with hnew hmin hmax
    obtain rfl := Except.ok.inj h
    refine ⟨⟨hname, hvalid, ?_, not_lt.mp hmax⟩, fun hmem => hnew (hany.mpr hmem), rfl⟩
    exact UInt32.pos_iff_ne_zero.mpr hmin
  · rintro ⟨hrule, hnew, rfl⟩
    rw [if_neg hrule.reserved, hrule.valid]
    dsimp only
    rw [if_neg fun hmem => hnew (hany.mp hmem), if_neg (UInt32.pos_iff_ne_zero.mp hrule.positive),
      if_neg (not_lt.mpr hrule.range)]

theorem add_policy_rules_ok :
    addPolicyRules acc index rules = .ok acc' ↔
      (∀ rule ∈ rules, rule.WellFormed) ∧ (rules.map fun rule => rule.named.name).Nodup ∧
        (∀ rule ∈ rules, rule.named.name ∉ acc.2.map Prod.fst) ∧ acc' = withRules acc rules := by
  induction rules generalizing acc index with
  | nil =>
    have hnil : withRules acc [] = acc := by simp [withRules]
    constructor
    · intro h
      obtain rfl := Except.ok.inj h
      exact ⟨by simp, .nil, by simp, hnil.symm⟩
    · rintro ⟨-, -, -, rfl⟩
      rw [hnil]
      rfl
  | cons rule rest ih =>
    have hcons : withRules acc (rule :: rest) = withRules (withRules acc [rule]) rest := by
      simp [withRules]
    have hnames : (withRules acc [rule]).2.map Prod.fst =
        acc.2.map Prod.fst ++ [rule.named.name] := by simp [withRules]
    have hstep : addPolicyRules acc index (rule :: rest) = .ok acc' ↔
        addPolicyRule acc index rule = .ok (withRules acc [rule]) ∧
          addPolicyRules (withRules acc [rule]) (index + 1) rest = .ok acc' := by
      rw [addPolicyRules]
      cases hrule : addPolicyRule acc index rule with
      | error err => simp
      | ok next =>
        obtain ⟨-, -, rfl⟩ := add_policy_rule_ok.mp hrule
        simp
    rw [hstep, add_policy_rule_ok, ih, hcons, hnames]
    simp only [List.forall_mem_cons, List.map_cons, List.nodup_cons, List.mem_append,
      List.mem_singleton, List.mem_map, not_or, and_true]
    constructor
    · rintro ⟨⟨hrule, hnew⟩, hrest, hnodup, hothers, rfl⟩
      refine ⟨⟨hrule, hrest⟩, ⟨?_, hnodup⟩, ⟨hnew, fun r hr => (hothers r hr).1⟩, rfl⟩
      rintro ⟨r, hr, hname⟩
      exact (hothers r hr).2 hname
    · rintro ⟨⟨hrule, hrest⟩, ⟨hfirst, hnodup⟩, ⟨hnew, hothers⟩, rfl⟩
      exact ⟨⟨hrule, hnew⟩, hrest, hnodup,
        fun r hr => ⟨hothers r hr, fun hname => hfirst ⟨r, hr, hname⟩⟩, rfl⟩

end Rules

/-! ## Sorting them -/

section Sorting

variable {rules : List DeliveryPolicyRule}

theorem policy_rule_le_eq :
    policyRuleLe = lexLe DeliveryPolicyRule.msgIDMin (lexLe DeliveryPolicyRule.msgIDMax
      fun a b => a.policy.name ≤ b.policy.name) :=
  rfl

theorem sorted_policy_rules (rules : List DeliveryPolicyRule) :
    (rules.mergeSort policyRuleLe).Pairwise fun a b => a.msgIDMin ≤ b.msgIDMin := by
  have hsorted : (rules.mergeSort policyRuleLe).Pairwise fun a b => policyRuleLe a b = true := by
    rw [policy_rule_le_eq]
    refine List.pairwise_mergeSort (lex_le_trans (lex_le_trans ?_))
      (lex_le_total (lex_le_total ?_)) rules
    · intro a b c hab hbc
      exact decide_eq_true (List.le_trans (of_decide_eq_true hab) (of_decide_eq_true hbc))
    · intro a b
      simpa using List.le_total a.policy.name b.policy.name
  rw [policy_rule_le_eq] at hsorted ⊢
  exact hsorted.imp key_le_of_lex_le

theorem policy_overlap_eq_none :
    policyOverlap rules = none ↔ rules.IsChain fun a b => a.msgIDMax < b.msgIDMin := by
  induction rules with
  | nil => simp [policyOverlap]
  | cons first rest ih =>
    cases rest with
    | nil => simp [policyOverlap]
    | cons second rest =>
      rw [policyOverlap, List.isChain_cons_cons, ← ih]
      split
      · next hle => simp [not_lt.mpr hle]
      · next hlt => simp [not_le.mp hlt]

theorem policy_overlap_sorted (hranges : ∀ rule ∈ rules, rule.msgIDMin ≤ rule.last) :
    policyOverlap ((rules.map DeliveryPolicyRule.normalized).mergeSort policyRuleLe) = none ↔
      rules.Pairwise fun a b => ¬∃ msgID, a.Covers msgID ∧ b.Covers msgID := by
  have hperm := List.mergeSort_perm (rules.map DeliveryPolicyRule.normalized) policyRuleLe
  have hvalid : ∀ rule ∈ (rules.map DeliveryPolicyRule.normalized).mergeSort policyRuleLe,
      rule.msgIDMin ≤ rule.msgIDMax := by
    intro rule hmem
    obtain ⟨original, horiginal, rfl⟩ := List.mem_map.mp (hperm.mem_iff.mp hmem)
    exact hranges original horiginal
  rw [policy_overlap_eq_none, neighbours_iff hvalid (sorted_policy_rules _),
    hperm.pairwise_iff fun hab hba => hab hba.symm, List.pairwise_map]
  rfl

theorem resolve_rules_eq {defaultPolicy : DeliveryPolicy} {msgID : UInt32}
    (hsorted : rules.Pairwise fun a b => a.msgIDMin ≤ b.msgIDMin) :
    resolveRules defaultPolicy msgID rules =
      ((rules.find? fun rule => rule.msgIDMin ≤ msgID && msgID ≤ rule.msgIDMax).map
        DeliveryPolicyRule.policy).getD defaultPolicy := by
  induction rules with
  | nil => rfl
  | cons rule rest ih =>
    obtain ⟨hfirst, hrest⟩ := List.pairwise_cons.mp hsorted
    rw [resolveRules, List.find?_cons]
    split
    · -- all later rules start above the `MsgID`, too
      next hlt =>
      have hnone : (rest.find? fun rule => rule.msgIDMin ≤ msgID && msgID ≤ rule.msgIDMax) =
          none := by
        refine List.find?_eq_none.mpr fun later hlater => ?_
        simp [hlt.trans_le (hfirst later hlater)]
      simp [not_le.mpr hlt, hnone]
    · next hge =>
      split
      · next hle => simp [not_lt.mp hge, hle]
      · next hgt =>
        rw [ih hrest]
        simp [hgt]

end Sorting

/-! ## Accepted sets -/

section Sets

variable {defaultPolicy : DeliveryPolicy} {rules rules' : List DeliveryPolicyRule}
  {set : DeliveryPolicySet}

theorem default_name_iff :
    (namedDefaultPolicy defaultPolicy).name = defaultDeliveryPolicyName ↔
      trimSpace defaultPolicy.name = [] ∨
        trimSpace defaultPolicy.name = defaultDeliveryPolicyName := by
  show (if trimSpace defaultPolicy.name = [] then defaultDeliveryPolicyName
    else trimSpace defaultPolicy.name) = defaultDeliveryPolicyName ↔ _
  split
  · next hnil => simp [hnil]
  · next hne => simp [hne]

theorem new_delivery_policy_set_ok :
    newDeliveryPolicySet defaultPolicy rules = .ok set ↔
      Acceptable defaultPolicy rules ∧
        set = ⟨namedDefaultPolicy defaultPolicy,
          (rules.map DeliveryPolicyRule.normalized).mergeSort policyRuleLe,
          (withRules ([], [((namedDefaultPolicy defaultPolicy).name,
            namedDefaultPolicy defaultPolicy)]) rules).2⟩ := by
  have hrules : ∀ {acc' : List DeliveryPolicyRule × List (GoString × DeliveryPolicy)},
      (namedDefaultPolicy defaultPolicy).name = defaultDeliveryPolicyName →
      (addPolicyRules ([], [((namedDefaultPolicy defaultPolicy).name,
          namedDefaultPolicy defaultPolicy)]) 0 rules = .ok acc' ↔
        (∀ rule ∈ rules, rule.WellFormed) ∧ (rules.map fun rule => rule.named.name).Nodup ∧
          acc' = withRules ([], [((namedDefaultPolicy defaultPolicy).name,
            namedDefaultPolicy defaultPolicy)]) rules) := by
    intro acc' hname
    rw [add_policy_rules_ok]
    -- a well-formed rule does not use the reserved name
    have hreserved : (∀ rule ∈ rules, rule.WellFormed) → ∀ rule ∈ rules, rule.named.name ∉
        [((namedDefaultPolicy defaultPolicy).name,
          namedDefaultPolicy defaultPolicy)].map Prod.fst := by
      intro hwell rule hmem
      rw [List.map_singleton, List.mem_singleton, hname]
      exact (hwell rule hmem).reserved
    exact ⟨fun ⟨hwell, hnodup, _, hacc⟩ => ⟨hwell, hnodup, hacc⟩,
      fun ⟨hwell, hnodup, hacc⟩ => ⟨hwell, hnodup, hreserved hwell, hacc⟩⟩
  unfold newDeliveryPolicySet
  dsimp only
  constructor
  · intro h
    split at h
    · cases h
    next hname =>
    rw [not_not] at hname
    split at h
    · cases h
    next hvalid =>
    split at h
    · cases h
    next normalized byName hadded =>
    obtain ⟨hwell, hnodup, hacc⟩ := (hrules hname).mp hadded
    obtain ⟨rfl, rfl⟩ := Prod.mk.inj hacc
    split at h
    · cases h
    next hoverlap =>
    rw [List.nil_append] at hoverlap h
    have hdisjoint := (policy_overlap_sorted fun rule hmem => (hwell rule hmem).range).mp hoverlap
    exact ⟨⟨default_name_iff.mp hname, hvalid, hwell, hnodup, hdisjoint⟩,
      (Except.ok.inj h).symm⟩
  · rintro ⟨hacceptable, rfl⟩
    have hname := default_name_iff.mpr hacceptable.name
    have hoverlap := (policy_overlap_sorted fun rule hmem =>
      (hacceptable.wellFormed rule hmem).range).mpr hacceptable.disjoint
    rw [if_neg (not_not.mpr hname), hacceptable.valid]
    dsimp only
    rw [(hrules hname).mpr ⟨hacceptable.wellFormed, hacceptable.names, rfl⟩]
    dsimp only [withRules]
    rw [List.nil_append, hoverlap]

/-- The rules in another order are as acceptable. -/
theorem Acceptable.perm (h : Acceptable defaultPolicy rules) (hperm : rules.Perm rules') :
    Acceptable defaultPolicy rules' where
  name := h.name
  valid := h.valid
  wellFormed rule hmem := h.wellFormed rule (hperm.mem_iff.mpr hmem)
  names := (hperm.map _).nodup_iff.mp h.names
  disjoint := (hperm.pairwise_iff fun hab hba => hab (by
    obtain ⟨msgID, hb, ha⟩ := hba
    exact ⟨msgID, ha, hb⟩)).mp h.disjoint

theorem resolve_eq (h : newDeliveryPolicySet defaultPolicy rules = .ok set) (msgID : UInt32) :
    set.resolve msgID =
      ((rules.find? fun rule => rule.msgIDMin ≤ msgID && msgID ≤ rule.last).map
        DeliveryPolicyRule.named).getD (namedDefaultPolicy defaultPolicy) := by
  obtain ⟨hacceptable, rfl⟩ := new_delivery_policy_set_ok.mp h
  rw [DeliveryPolicySet.resolve, resolve_rules_eq (sorted_policy_rules _)]
  have hone : AtMostOne (fun rule : DeliveryPolicyRule =>
      rule.msgIDMin ≤ msgID && msgID ≤ rule.msgIDMax)
      (rules.map DeliveryPolicyRule.normalized) := by
    refine List.pairwise_map.mpr (hacceptable.disjoint.imp fun {a b} hab hboth => hab ⟨msgID, ?_⟩)
    exact ⟨DeliveryPolicyRule.covers_iff.mp hboth.1, DeliveryPolicyRule.covers_iff.mp hboth.2⟩
  rw [hone.find?_perm (List.mergeSort_perm _ _).symm, List.find?_map]
  rw [Option.map_map]
  rfl

/-- `NewDeliveryPolicySet` accepts exactly the acceptable arguments, and the set then resolves every
`MsgID` to the policy of the one rule that contains it, or to the default policy, in whatever order
the rules were given. -/
theorem delivery_policies_exact (defaultPolicy : DeliveryPolicy)
    (rules : List DeliveryPolicyRule) :
    ((∃ set, newDeliveryPolicySet defaultPolicy rules = .ok set) ↔
      Acceptable defaultPolicy rules) ∧
    ∀ set, newDeliveryPolicySet defaultPolicy rules = .ok set →
      (∀ msgID rule, rule ∈ rules → rule.Covers msgID →
        set.resolve msgID = rule.named ∧ ∀ other ∈ rules, other.Covers msgID → other = rule) ∧
      (∀ msgID, (∀ rule ∈ rules, ¬rule.Covers msgID) →
        set.resolve msgID = namedDefaultPolicy defaultPolicy) ∧
      ∀ rules', rules.Perm rules' →
        ∃ set', newDeliveryPolicySet defaultPolicy rules' = .ok set' ∧
          ∀ msgID, set'.resolve msgID = set.resolve msgID := by
  refine ⟨⟨?_, ?_⟩, ?_⟩
  · rintro ⟨set, h⟩
    exact (new_delivery_policy_set_ok.mp h).1
  · intro h
    exact ⟨_, new_delivery_policy_set_ok.mpr ⟨h, rfl⟩⟩
  intro set h
  have hacceptable := (new_delivery_policy_set_ok.mp h).1
  have hone : ∀ msgID : UInt32, AtMostOne (fun rule : DeliveryPolicyRule =>
      rule.msgIDMin ≤ msgID && msgID ≤ rule.last) rules := by
    intro msgID
    refine hacceptable.disjoint.imp fun {a b} hab hboth => hab ⟨msgID, ?_⟩
    exact ⟨DeliveryPolicyRule.covers_iff.mp hboth.1, DeliveryPolicyRule.covers_iff.mp hboth.2⟩
  have hcovers := @DeliveryPolicyRule.covers_iff
  refine ⟨?_, ?_, ?_⟩
  · intro msgID rule hmem hrule
    have hunique : ∀ other ∈ rules, other.Covers msgID → other = rule := fun other hother hcover =>
      (hone msgID).eq hmem hother (hcovers.mpr hrule) (hcovers.mpr hcover)
    refine ⟨?_, hunique⟩
    rw [resolve_eq h, find?_eq_of_unique hmem (hcovers.mpr hrule)
      fun other hother hcover => hunique other hother (hcovers.mp hcover)]
    rfl
  · intro msgID hnone
    rw [resolve_eq h, List.find?_eq_none.mpr fun rule hmem hcover =>
      hnone rule hmem (hcovers.mp hcover)]
    rfl
  · intro rules' hperm
    obtain ⟨set', h'⟩ : ∃ set', newDeliveryPolicySet defaultPolicy rules' = .ok set' :=
      ⟨_, new_delivery_policy_set_ok.mpr ⟨hacceptable.perm hperm, rfl⟩⟩
    refine ⟨set', h', fun msgID => ?_⟩
    rw [resolve_eq h, resolve_eq h', (hone msgID).find?_perm hperm]

end Sets

/-- Two rules, the later range first; the second one has a single `MsgID`. -/
def twoRules : List DeliveryPolicyRule :=
  [⟨{ fiveAttempts with name := ascii " slow " }, 200, 299⟩,
    ⟨{ fiveAttempts with name := ascii "once", maxAttempts := 1 }, 100, 0⟩]

theorem two_rules_acceptable : Acceptable fiveAttempts twoRules := by
  refine ⟨.inr (by decide +kernel), by decide +kernel, ?_, by decide +kernel, ?_⟩
  · intro rule hmem
    rcases List.mem_cons.mp hmem with rfl | hmem
    · exact ⟨by decide +kernel, by decide +kernel, by decide, by decide⟩
    · cases List.mem_singleton.mp hmem
      exact ⟨by decide +kernel, by decide +kernel, by decide, by decide⟩
  · refine List.pairwise_cons.mpr ⟨fun rule hmem hboth => ?_, List.pairwise_singleton _ _⟩
    cases List.mem_singleton.mp hmem
    have hle := (overlap_iff (by decide) (by decide)).mp hboth
    exact absurd hle (by decide)

/-- Both rules and the default policy are found. -/
theorem delivery_policies_exact_two_rules :
    ∃ set, newDeliveryPolicySet fiveAttempts twoRules = .ok set ∧
      (set.resolve 250).name = ascii "slow" ∧ (set.resolve 100).maxAttempts = 1 ∧
      set.resolve 101 = namedDefaultPolicy fiveAttempts := by
  obtain ⟨haccepts, hresolves⟩ := delivery_policies_exact fiveAttempts twoRules
  obtain ⟨set, hset⟩ := haccepts.mpr two_rules_acceptable
  obtain ⟨hrule, hdefault, -⟩ := hresolves set hset
  refine ⟨set, hset, ?_, ?_, ?_⟩
  · rw [(hrule 250 _ List.mem_cons_self (by decide)).1]
    decide +kernel
  · rw [(hrule 100 _ (List.mem_cons_of_mem _ List.mem_cons_self) (by decide)).1]
    rfl
  · refine hdefault 101 fun rule hmem => ?_
    rcases List.mem_cons.mp hmem with rfl | hmem
    · decide
    · cases List.mem_singleton.mp hmem
      decide

end ZCourier.Downlink
