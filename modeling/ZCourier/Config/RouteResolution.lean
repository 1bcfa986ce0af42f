import Mathlib.Data.List.Find
import ZCourier.Config.Acceptance
import ZCourier.Config.RouteConflicts

/-!
# Accepted routes are unambiguous

Three places look up the route of a message, each on its own copy of the routes: `ResolveRoute` and
`Forward` of the engine and `resolveRoute` of the policy selector. `accepted_routes_unambiguous` is
that of the routes a file is accepted with no more than one matches, so that all three agree.
-/

namespace ZCourier.Config

open Go Server Library Router

variable {H N : Type}

/-! ## Conversion -/

section Conversion

variable {route : UpstreamRouteConfig H N} {routes : List (UpstreamRouteConfig H N)}

/-- What a converted route has in common with the configured one. -/
theorem to_upstream_route_ok {converted : Server.UpstreamRouteConfig H N}
    (h : toUpstreamRoute route = .ok converted) :
    validateMsgIDRange route = none ∧ converted.name = route.name ∧
      converted.msgIDMin = route.msgIDMin ∧ converted.msgIDMax = route.msgIDMax ∧
      (converted.http.isSome ∨ converted.nsq.isSome) := by
  unfold toUpstreamRoute at h
  cases hvalid : validateMsgIDRange route with
  | some err => simp [hvalid] at h
  | none =>
    simp only [hvalid] at h
    generalize (if route.target.type = [] then ascii "http" else route.target.type) = type at h
    split at h
    · split at h
      · cases h
      · cases h
        exact ⟨rfl, rfl, rfl, rfl, .inl rfl⟩
    · split at h
      · split at h
        · cases h
        · cases h
          exact ⟨rfl, rfl, rfl, rfl, .inr rfl⟩
      · cases h

theorem converted_forall₂ {converted : List (Server.UpstreamRouteConfig H N)}
    (h : toUpstreamRoutes routes = .ok converted) :
    List.Forall₂ (fun route one => toUpstreamRoute route = .ok one)
      (routes.filter upstreamRouteEnabled) converted := by
  induction routes generalizing converted with
  | nil => cases h; exact .nil
  | cons route rest ih =>
    cases henabled : upstreamRouteEnabled route with
    | false =>
      rw [List.filter_cons_of_neg (by simp [henabled])]
      refine ih ?_
      simpa [toUpstreamRoutes, henabled] using h
    | true =>
      rw [List.filter_cons_of_pos henabled]
      simp only [toUpstreamRoutes, henabled, Bool.not_true, Bool.false_eq_true, if_false] at h
      simp only [bind_eq_ok, pure_eq_ok] at h
      obtain ⟨one, hone, others, hrest, rfl⟩ := h
      exact .cons hone (ih hrest)

theorem converts_iff :
    (∃ converted, toUpstreamRoutes routes = .ok converted) ↔
      ∀ route ∈ routes, upstreamRouteEnabled route → ∃ one, toUpstreamRoute route = .ok one := by
  constructor
  · rintro ⟨converted, h⟩ route hroute henabled
    have hmem := List.mem_filter.mpr ⟨hroute, henabled⟩
    obtain ⟨one, -, hone⟩ := exists_counterpart (converted_forall₂ h) hmem
    exact ⟨one, hone⟩
  · intro h
    induction routes with
    | nil => exact ⟨[], rfl⟩
    | cons route rest ih =>
      obtain ⟨hfirst, hothers⟩ := List.forall_mem_cons.mp h
      obtain ⟨others, hrest⟩ := ih hothers
      cases henabled : upstreamRouteEnabled route with
      | false => exact ⟨others, by simp [toUpstreamRoutes, henabled, hrest]⟩
      | true =>
        obtain ⟨one, hone⟩ := hfirst henabled
        exact ⟨one :: others, by
          simp [toUpstreamRoutes, henabled, hone, hrest, bind, Except.bind, pure, Except.pure]⟩

variable [ParseDuration]

theorem accepted_spec {file : File H N} {resolved : ResolvedUpstreamRoutes H N}
    (h : file.validateResolvedRoutes resolved = []) :
    (∃ converted, toUpstreamRoutes resolved.routes = .ok converted) ∧
      Unambiguous resolved.routes ∧
      validateRoutesInsideReloadRanges resolved.routes resolved.fileConfig = [] := by
  obtain ⟨⟨-, -, converted, -, hconverted, -⟩, hconflicts, hinside⟩ := validate_resolved_iff.mp h
  have hconverts : ∃ converted, toUpstreamRoutes resolved.routes = .ok converted :=
    ⟨converted, hconverted⟩
  refine ⟨hconverts, unambiguous_of_no_conflicts (fun route hroute henabled => ?_) hconflicts,
    hinside⟩
  obtain ⟨one, hone⟩ := converts_iff.mp hconverts route hroute henabled
  exact (to_upstream_route_ok hone).1

end Conversion

/-! ## The engine -/

section Engine

variable {F ε : Type} {make : Forwarders H N F ε}

/-- The engine's route for a converted one: the same range, with its forwarder. -/
def EngineRoute (make : Forwarders H N F ε) (route : Server.UpstreamRouteConfig H N)
    (made : Route F) : Prop :=
  ∃ forwarder, newRouteForwarder make route = .ok (some forwarder) ∧
    made = ⟨route.name, route.msgIDMin, route.msgIDMax, some (wrapForwarder make route forwarder)⟩

theorem new_route_forwarder_ne_none {route : Server.UpstreamRouteConfig H N}
    (htarget : route.http.isSome ∨ route.nsq.isSome) :
    newRouteForwarder make route ≠ .ok none := by
  unfold newRouteForwarder
  cases hhttp : route.http with
  | some target => simp [map_eq_ok]
  | none =>
    cases hnsq : route.nsq with
    | some target => simp [map_eq_ok]
    | none => simp [hhttp, hnsq] at htarget

theorem engine_forall₂ {routes : List (Server.UpstreamRouteConfig H N)} {made : List (Route F)}
    (htargets : ∀ route ∈ routes, route.http.isSome ∨ route.nsq.isSome)
    (h : engineRoutes make routes = .ok made) :
    List.Forall₂ (EngineRoute make) routes made := by
  induction routes generalizing made with
  | nil => cases h; exact .nil
  | cons route rest ih =>
    obtain ⟨htarget, hothers⟩ := List.forall_mem_cons.mp htargets
    simp only [engineRoutes, bind_eq_ok] at h
    obtain ⟨forwarder, hforwarder, others, hrest, h⟩ := h
    cases forwarder with
    | none => exact absurd hforwarder (new_route_forwarder_ne_none htarget)
    | some forwarder =>
      rw [← pure_eq_ok.mp h]
      exact .cons ⟨forwarder, hforwarder, rfl⟩ (ih hothers hrest)

theorem new_upstream_engine_ok {routes : List (Server.UpstreamRouteConfig H N)}
    {engine : Option (Engine F)} (h : newUpstreamEngine make routes = .ok engine) :
    ∃ made, engineRoutes make routes = .ok made ∧
      ∀ msgID, engine.bind (fun e => e.choose msgID) = Engine.choose ⟨made⟩ msgID := by
  simp only [newUpstreamEngine, bind_eq_ok, pure_eq_ok] at h
  obtain ⟨made, hmade, rfl⟩ := h
  refine ⟨made, hmade, fun msgID => ?_⟩
  cases made with
  | nil => rfl
  | cons first rest => rfl

theorem engine_resolve_eq (engine : Option (Engine F)) (msgID : UInt32) :
    Engine.resolveRoute engine msgID =
      ((engine.bind fun e => e.choose msgID).map fun route => (route.name, true)).getD
        ([], false) := by
  cases engine with
  | none => rfl
  | some e => cases hroute : e.choose msgID <;> simp [Engine.resolveRoute, hroute]

theorem engine_forward_eq (engine : Option (Engine F)) (msgID : UInt32)
    (send : F → Option ForwardResult × Option ε) :
    Engine.forward engine msgID send =
      match engine.bind fun e => e.choose msgID with
      | none => (none, some .routeNotFound)
      | some route =>
        match route.forwarder with
        | none => (none, some .routeNotFound)
        | some forwarder =>
          (some { (send forwarder).1.getD .zero with routeName := route.name },
            (send forwarder).2.map .forwarder) := by
  cases engine with
  | none => rfl
  | some e => rfl

end Engine

/-! ## The three resolvers -/

/-- The first enabled route that takes a message. -/
def routeFor (routes : List (UpstreamRouteConfig H N)) (msgID : UInt32) :
    Option (UpstreamRouteConfig H N) :=
  routes.find? fun route => upstreamRouteEnabled route && route.takes msgID

/-- All three resolvers find nothing, or all use the given route: the engine under its name and
with the forwarder made for it, the selector under its trimmed name. -/
def AllChoose {F ε : Type} (make : Forwarders H N F ε) (engine : Option (Engine F))
    (selector : TrafficPolicySelector) (msgID : UInt32) :
    Option (UpstreamRouteConfig H N) → Prop
  | none =>
    Engine.resolveRoute engine msgID = ([], false) ∧
    (∀ send : F → Option ForwardResult × Option ε,
      Engine.forward engine msgID send = (none, some .routeNotFound)) ∧
    selector.resolveRoute msgID = ([], false)
  | some route =>
    Engine.resolveRoute engine msgID = (route.name, true) ∧
    (∃ converted forwarder, toUpstreamRoute route = .ok converted ∧
      newRouteForwarder make converted = .ok (some forwarder) ∧
      ∀ send : F → Option ForwardResult × Option ε,
        let answer := send (wrapForwarder make converted forwarder)
        Engine.forward engine msgID send =
          (some { answer.1.getD .zero with routeName := route.name },
            answer.2.map .forwarder)) ∧
    selector.resolveRoute msgID = (trimSpace route.name, true)

section Resolvers

variable {routes : List (UpstreamRouteConfig H N)}
  {converted : List (Server.UpstreamRouteConfig H N)}

theorem converted_search (h : toUpstreamRoutes routes = .ok converted) (msgID : UInt32) :
    Option.Rel (fun route one => toUpstreamRoute route = .ok one) (routeFor routes msgID)
      (converted.find? fun route => matchesMsgID route.msgIDMin route.msgIDMax msgID) := by
  have hfilter : routeFor routes msgID =
      (routes.filter upstreamRouteEnabled).find? fun route => route.takes msgID := by
    rw [List.find?_filter]
    simp [routeFor]
  rw [hfilter]
  refine find?_rel (converted_forall₂ h) fun route one hone => ?_
  obtain ⟨-, -, hmin, hmax, -⟩ := to_upstream_route_ok hone
  rw [hmin, hmax]
  rfl

theorem engine_search {F ε : Type} {make : Forwarders H N F ε} {engine : Option (Engine F)}
    (h : toUpstreamRoutes routes = .ok converted)
    (hengine : newUpstreamEngine make converted = .ok engine) (msgID : UInt32) :
    Option.Rel (EngineRoute make)
      (converted.find? fun route => matchesMsgID route.msgIDMin route.msgIDMax msgID)
      (engine.bind fun e => e.choose msgID) := by
  obtain ⟨made, hmade, hchoose⟩ := new_upstream_engine_ok hengine
  rw [hchoose]
  have htargets : ∀ one ∈ converted, one.http.isSome ∨ one.nsq.isSome := by
    intro one hmem
    obtain ⟨route, -, hone⟩ := exists_counterpart (converted_forall₂ h).flip hmem
    exact (to_upstream_route_ok hone).2.2.2.2
  refine find?_rel (engine_forall₂ htargets hmade) ?_
  rintro one - ⟨forwarder, -, rfl⟩
  simp [Route.matches]

theorem range_end_range_end (msgIDMin msgIDMax : UInt32) :
    rangeEnd msgIDMin (rangeEnd msgIDMin msgIDMax) = rangeEnd msgIDMin msgIDMax := by
  unfold rangeEnd
  split_ifs <;> rfl

theorem selector_search (h : toUpstreamRoutes routes = .ok converted) (msgID : UInt32) :
    ((converted.map toTrafficPolicyRoute).find? fun route =>
        route.msgIDMin ≤ msgID && msgID ≤ rangeEnd route.msgIDMin route.msgIDMax) =
      (converted.find? fun route => matchesMsgID route.msgIDMin route.msgIDMax msgID).map
        toTrafficPolicyRoute := by
  rw [List.find?_map]
  congr 1
  refine List.find?_congr fun one hmem => ?_
  obtain ⟨route, -, hone⟩ := exists_counterpart (converted_forall₂ h).flip hmem
  obtain ⟨hvalid, -, hmin, -⟩ := to_upstream_route_ok hone
  simp only [Function.comp_apply, toTrafficPolicyRoute, range_end_range_end]
  exact (matches_msg_id_eq (hmin ▸ (valid_range hvalid).1) _ _).symm

theorem all_choose {F ε : Type} {make : Forwarders H N F ε} {engine : Option (Engine F)}
    (h : toUpstreamRoutes routes = .ok converted)
    (hengine : newUpstreamEngine make converted = .ok engine)
    {selector : TrafficPolicySelector}
    (hroutes : selector.routes = converted.map toTrafficPolicyRoute) (msgID : UInt32) :
    AllChoose make engine selector msgID (routeFor routes msgID) := by
  have hconverted := converted_search h msgID
  have hmade := engine_search h hengine msgID
  have hselector : selector.resolveRoute msgID =
      (selector.routes.find? fun route =>
        route.msgIDMin ≤ msgID && msgID ≤ rangeEnd route.msgIDMin route.msgIDMax).elim
          ([], false) fun route => (route.name, true) := by
    rw [TrafficPolicySelector.resolveRoute]
    cases selector.routes.find? _ <;> rfl
  rw [hroutes, selector_search h msgID] at hselector
  generalize routeFor routes msgID = found at hconverted ⊢
  generalize (converted.find? fun route =>
    matchesMsgID route.msgIDMin route.msgIDMax msgID) = one at hconverted hmade hselector
  generalize hchosen : (engine.bind fun e => e.choose msgID) = chosen at hmade
  cases hconverted with
  | none =>
    cases hmade
    refine ⟨?_, fun send => ?_, hselector⟩
    · rw [engine_resolve_eq, hchosen]
      rfl
    · rw [engine_forward_eq, hchosen]
  | @some route one hone =>
    cases hmade with
    | some hmade =>
      obtain ⟨forwarder, hforwarder, rfl⟩ := hmade
      have hname := (to_upstream_route_ok hone).2.1
      refine ⟨?_, ⟨one, forwarder, hone, hforwarder, fun send => ?_⟩, ?_⟩
      · rw [engine_resolve_eq, hchosen, ← hname]
        rfl
      · rw [engine_forward_eq, hchosen, ← hname]
      · rw [hselector, ← hname]
        rfl

variable [ParseDuration]

/-- Accepted routes are unambiguous, the check refuses no unambiguous ones, and whatever their
order, the engine and the policy selector use the one route that takes a message. -/
theorem accepted_routes_unambiguous :
    (∀ (file : File H N) (resolved : ResolvedUpstreamRoutes H N),
      file.validateResolvedRoutes resolved = [] →
        (∀ msgID, AtMostOne (fun route => upstreamRouteEnabled route && route.takes msgID)
          resolved.routes) ∧
        (∀ route ∈ resolved.routes, upstreamRouteEnabled route →
          ∀ reserved ∈ reservedMsgIDs, route.takes reserved = false) ∧
        ∀ routes, routes.Perm resolved.routes →
          ∃ converted, toUpstreamRoutes routes = .ok converted ∧
            ∀ (F ε : Type) (make : Forwarders H N F ε) (engine : Option (Engine F)),
              newUpstreamEngine make converted = .ok engine →
            ∀ (policies : TrafficPoliciesConfig) (config : PipelinePolicies),
              toTrafficPoliciesConfig policies converted = .ok config →
            ∀ msgID, AllChoose make engine (newTrafficPolicySelector config.selection) msgID
              (routeFor resolved.routes msgID)) ∧
    ∀ routes : List (UpstreamRouteConfig H N),
      Unambiguous routes → validateUpstreamRouteConflicts routes = [] := by
  refine ⟨fun file resolved h => ?_, fun routes => no_conflicts_of_unambiguous⟩
  obtain ⟨hconverts, hunambiguous, -⟩ := accepted_spec h
  refine ⟨hunambiguous.disjoint, hunambiguous.unreserved, fun routes hperm => ?_⟩
  obtain ⟨converted, hconverted⟩ := converts_iff.mpr fun route hroute =>
    converts_iff.mp hconverts route (hperm.mem_iff.mp hroute)
  refine ⟨converted, hconverted, fun F ε make engine hengine policies config hconfig msgID => ?_⟩
  have hsame : routeFor resolved.routes msgID = routeFor routes msgID :=
    ((hunambiguous.disjoint msgID).find?_perm hperm.symm).symm
  rw [hsame]
  exact all_choose hconverted hengine (to_traffic_policies_iff.mp hconfig).routes msgID

end Resolvers

/-! ## An accepted file -/

/-- A route with an HTTP target. -/
def plainRoute (name : GoString) (msgIDMin msgIDMax : UInt32) : UpstreamRouteConfig Unit Unit :=
  ⟨name, none, msgIDMin, msgIDMax, ⟨[], 0, .ok (), .error []⟩⟩

/-- A section without policies. -/
def noPolicies : TrafficPoliciesConfig :=
  ⟨false, [], 0, [], ⟨[], [], [], 0, [], [], [], [], [], []⟩, [], []⟩

/-- A file with the given routes and nothing else. -/
def plainFile (routes : List (UpstreamRouteConfig Unit Unit)) : File Unit Unit :=
  ⟨[], routes, none, ⟨false, 0, []⟩, noPolicies, none, none, none⟩

def namedForwarders : Forwarders Unit Unit GoString Unit :=
  ⟨fun route _ => .ok route.name, fun route _ => .ok route.name, none, fun _ forwarder => forwarder⟩

/-- Two routes, the first with a blank before its name. -/
def twoRoutes : List (UpstreamRouteConfig Unit Unit) :=
  [plainRoute (ascii " a") 10 19, plainRoute (ascii "b") 20 0]

theorem accepted_routes_unambiguous_two :
    let _ := ParseDuration.seconds
    (plainFile twoRoutes).validateResolvedRoutes ⟨twoRoutes, none⟩ = [] ∧
      ∃ engine config,
        AllChoose namedForwarders engine (newTrafficPolicySelector config) 15
          (some (plainRoute (ascii " a") 10 19)) := by
  let _ := ParseDuration.seconds
  have hshape : (plainFile twoRoutes).validateShape twoRoutes = .ok () := rfl
  have hconflicts : validateUpstreamRouteConflicts twoRoutes = [] := by
    have hsorted : (collectRanges [] 0 twoRoutes).2.Pairwise
      fun a b => validationRangeLe a b = true := by decide
    simp only [validateUpstreamRouteConflicts]
    rw [List.mergeSort_of_pairwise hsorted]
    decide
  have haccepted : (plainFile twoRoutes).validateResolvedRoutes ⟨twoRoutes, none⟩ = [] := by
    simp only [File.validateResolvedRoutes, hshape, hconflicts]
    rfl
  obtain ⟨converted, hconverted, hchoose⟩ :=
    (accepted_routes_unambiguous.1 (plainFile twoRoutes) ⟨twoRoutes, none⟩ haccepted).2.2
      twoRoutes.reverse (List.reverse_perm _)
  cases hconverted
  exact ⟨haccepted, _, _, hchoose GoString Unit namedForwarders _ rfl noPolicies _ rfl 15⟩

end ZCourier.Config
