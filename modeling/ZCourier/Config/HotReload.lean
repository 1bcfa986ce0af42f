import ZCourier.Config.RouteResolution
import ZCourier.Server.Registration

/-!
# Hot reload routes registered messages only

A gateway registers its handlers once, from the configuration it starts with; a routes file that
is loaded again later can only change where messages are forwarded. The loader refuses routes
outside the accepted ranges, which `registeredMsgIDs` registers; `reloaded_routes_registered` is
that this suffices.
-/

namespace ZCourier.Config

open Go Server Library

variable {H N : Type}

/-- What `registeredMsgIDs` reads of a configuration. -/
def ServerConfig.registration (config : ServerConfig H N) : RegistrationConfig H N :=
  ⟨config.routeMsgIDs, config.upstreamRoutes,
    (config.routesFile.map RoutesFile.reload).getD ⟨false, 0, []⟩⟩

/-! ## The configuration at startup -/

section Startup

variable [ParseDuration] {file : File H N}
  {source : Except GoString (UpstreamRoutesDocument H N)}

theorem resolved_file_config {resolved : ResolvedUpstreamRoutes H N} {fileConfig : RoutesFile}
    (h : file.resolveUpstreamRoutes source = .ok resolved)
    (hfile : resolved.fileConfig = some fileConfig) :
    ∃ raw : UpstreamRoutesFileConfig,
      toServerUpstreamRouteReloadConfig raw.reload = .ok fileConfig.reload := by
  unfold File.resolveUpstreamRoutes at h
  cases hraw : file.routesFile with
  | none =>
    rw [hraw] at h
    cases h
    cases hfile
  | some raw =>
    simp only [hraw, error_if_eq_ok, bind_eq_ok, pure_eq_ok] at h
    obtain ⟨-, converted, hconverted, document, -, rfl⟩ := h
    cases hfile
    refine ⟨raw, ?_⟩
    simp only [toServerUpstreamRoutesFileConfig, refuse_if_eq_ok, bind_eq_ok] at hconverted
    obtain ⟨-, -, reload, hreload, h⟩ := hconverted
    cases hpath : raw.resolvedPath with
    | error reason => simp [hpath, throw_eq_ok] at h
    | ok path =>
      simp only [hpath, pure_eq_ok] at h
      rw [← h]
      exact hreload

end Startup

/-! ## The accepted ranges -/

theorem collect_accepted_ok {given : List MsgIDRangeConfig} {index : Nat} {total : UInt64}
    {ranges : List MsgIDRange} (h : collectAcceptedRanges index total given = .ok ranges) :
    ranges.length = given.length ∧
      ∀ range ∈ ranges, Registrable range.min range.max := by
  induction given generalizing index total ranges with
  | nil => cases h; simp
  | cons candidate rest ih =>
    simp only [collectAcceptedRanges, error_if_eq_ok] at h
    obtain ⟨hvalid, hwidth, h⟩ := h
    simp only [Bool.or_eq_true, decide_eq_true_eq, not_or, not_lt] at hvalid hwidth
    cases hreserved : reservedIn candidate.min (rangeEnd candidate.min candidate.max) with
    | some reserved => simp [hreserved] at h
    | none =>
      simp only [hreserved, error_if_eq_ok, map_eq_ok] at h
      obtain ⟨-, others, hothers, rfl⟩ := h
      obtain ⟨hlength, hranges⟩ := ih hothers
      exact ⟨by simp [hlength],
        List.forall_mem_cons.mpr ⟨⟨hvalid.1, hvalid.2, hwidth⟩, hranges⟩⟩

theorem normalized_ranges_ok {given : List MsgIDRangeConfig} {ranges : List MsgIDRange}
    (h : normalizeUpstreamReloadAcceptedRanges given = .ok ranges) :
    ranges.length = given.length ∧ ∀ range ∈ ranges, Registrable range.min range.max := by
  simp only [normalizeUpstreamReloadAcceptedRanges, error_if_eq_ok] at h
  obtain ⟨-, h⟩ := h
  cases hcollected : collectAcceptedRanges 0 0 given with
  | error err => simp [hcollected] at h
  | ok collected =>
    obtain ⟨hlength, hranges⟩ := collect_accepted_ok hcollected
    simp only [hcollected] at h
    cases hoverlap : acceptedOverlap (collected.mergeSort msgIDRangeLe) with
    | some pair => simp [hoverlap] at h
    | none =>
      simp only [hoverlap, Except.ok.injEq] at h
      subst h
      exact ⟨by rw [List.length_mergeSort, hlength],
        fun range hrange => hranges range (List.mem_mergeSort.mp hrange)⟩

theorem registrable_range_end {msgIDMin msgIDMax : UInt32} (h : Registrable msgIDMin msgIDMax) :
    rangeEnd msgIDMin msgIDMax = msgIDMax := by
  refine if_neg fun hzero => h.1 ?_
  have hle := UInt32.le_iff_toNat_le.mp (hzero ▸ h.2.1)
  exact UInt32.toNat_inj.mp (Nat.le_zero.mp hle)

theorem accepted_registrable {routes : List (UpstreamRouteConfig H N)}
    {converted : List (Server.UpstreamRouteConfig H N)} (hunambiguous : Unambiguous routes)
    (hconverted : toUpstreamRoutes routes = .ok converted) :
    ∀ one ∈ converted, Registrable one.msgIDMin (rangeEnd one.msgIDMin one.msgIDMax) := by
  intro one hmem
  obtain ⟨route, hroute, hone⟩ := exists_counterpart (converted_forall₂ hconverted).flip hmem
  obtain ⟨hroute, henabled⟩ := List.mem_filter.mp hroute
  obtain ⟨hvalid, -, hmin, hmax, -⟩ := to_upstream_route_ok hone
  obtain ⟨hpositive, hle⟩ := valid_range hvalid
  rw [hmin, hmax]
  exact ⟨hpositive, hle, hunambiguous.width route hroute henabled⟩

section Reload

variable [ParseDuration]

theorem reload_ranges_ok {raw : UpstreamRouteReloadConfig}
    {reload : Server.UpstreamRouteReloadConfig}
    (h : toServerUpstreamRouteReloadConfig raw = .ok reload) (henabled : reload.enabled = true) :
    reload.acceptedMsgIDRanges ≠ [] ∧
      ∀ range ∈ reload.acceptedMsgIDRanges, Registrable range.min range.max := by
  unfold toServerUpstreamRouteReloadConfig at h
  split at h
  · simp only [error_if_eq_ok] at h
    obtain ⟨-, h⟩ := h
    cases h
    cases henabled
  · simp only [error_if_eq_ok, bind_eq_ok, pure_eq_ok] at h
    obtain ⟨hsome, timeout, -, ranges, hranges, rfl⟩ := h
    obtain ⟨hlength, hregistrable⟩ := normalized_ranges_ok hranges
    refine ⟨fun hnil => hsome ?_, hregistrable⟩
    have hzero : raw.acceptedMsgIDRanges.length = 0 := by
      rw [← hlength]
      exact List.length_eq_zero_iff.mpr hnil
    exact List.isEmpty_iff.mpr (List.length_eq_zero_iff.mp hzero)

end Reload

/-! ## The loader -/

theorem inside_reload_ranges {accepted : List MsgIDRange} {index : Nat}
    {routes : List (UpstreamRouteConfig H N)} (h : routesOutsideRanges accepted index routes = [])
    {route : UpstreamRouteConfig H N} (hroute : route ∈ routes)
    (henabled : upstreamRouteEnabled route) (hvalid : validateMsgIDRange route = none) :
    ∃ allowed ∈ accepted, allowed.min ≤ route.msgIDMin ∧ route.last ≤ allowed.max := by
  induction routes generalizing index with
  | nil => cases hroute
  | cons first rest ih =>
    simp only [routesOutsideRanges, List.append_eq_nil_iff] at h
    rcases List.mem_cons.mp hroute with rfl | hrest
    · obtain ⟨h, -⟩ := h
      rw [if_neg (by simp [henabled, hvalid])] at h
      split at h
      · next hany =>
        obtain ⟨allowed, hallowed, hends⟩ := List.any_eq_true.mp hany
        rw [Bool.and_eq_true, decide_eq_true_eq, decide_eq_true_eq] at hends
        exact ⟨allowed, hallowed, hends⟩
      · cases h
    · exact ih h.2 hrest

section Loader

variable [ParseDuration]

theorem load_routes_ok {file : File H N} {fileConfig : RoutesFile}
    {before after : Option ContextError} {later : Except GoString (UpstreamRoutesDocument H N)}
    {routes : List (Server.UpstreamRouteConfig H N)}
    (h : file.loadRoutes fileConfig before after later = .ok routes) :
    ∃ document, later = .ok document ∧
      file.validateResolvedRoutes ⟨document.routes, some fileConfig⟩ = [] ∧
      toUpstreamRoutes document.routes = .ok routes := by
  unfold File.loadRoutes at h
  cases before with
  | some err => simp [bind_eq_ok, throw_eq_ok] at h
  | none =>
    simp only [bind_eq_ok, refuse_if_eq_ok, map_error_eq_ok] at h
    obtain ⟨document, hdocument, hproblems, converted, hconverted, h⟩ := h
    have haccepted : file.validateResolvedRoutes ⟨document.routes, some fileConfig⟩ = [] := by
      simpa using hproblems
    have hlater : later = .ok document := by
      unfold loadUpstreamRoutesDocument at hdocument
      cases later with
      | error reason => cases hdocument
      | ok read =>
        simp only [error_if_eq_ok] at hdocument
        split at hdocument
        · cases hdocument.2
        · rw [Except.ok.inj hdocument.2]
    cases after with
    | some err => simp only [bind_eq_ok, throw_eq_ok, false_and, exists_false] at h
    | none =>
      simp only [pure_eq_ok] at h
      exact ⟨document, hlater, haccepted, h ▸ map_error_eq_ok.mp hconverted⟩

/-- Every message that an enabled route of a document loaded later takes is registered by the
gateway that was started, and is not reserved; and the registration always comes to its end. -/
theorem reloaded_routes_registered {file : File H N} {config : ServerConfig H N}
    {source later : Except GoString (UpstreamRoutesDocument H N)} {fileConfig : RoutesFile}
    {before after : Option ContextError} {routes : List (Server.UpstreamRouteConfig H N)}
    (hstart : file.toServerConfig source = .ok config)
    (hfile : config.routesFile = some fileConfig) (hreload : fileConfig.reload.enabled = true)
    (hload : file.loadRoutes fileConfig before after later = .ok routes)
    {fuel : Nat} (hfuel : 10001 ≤ fuel) :
    (∃ document msgIDs, later = .ok document ∧
      registeredMsgIDs fuel config.registration = some (.ok msgIDs) ∧
      ∀ route ∈ document.routes, upstreamRouteEnabled route →
        ∀ msgID, route.takes msgID = true → msgID ∈ msgIDs ∧ msgID ∉ reservedMsgIDs) ∧
    ∀ any : RegistrationConfig H N, registeredMsgIDs fuel any ≠ none := by
  refine ⟨?_, registered_ne_none hfuel⟩
  obtain ⟨resolved, haccepted⟩ := to_server_config_iff.mp hstart
  obtain ⟨raw, hraw⟩ := resolved_file_config haccepted.resolves (haccepted.routesFile ▸ hfile)
  obtain ⟨hsome, hranges⟩ := reload_ranges_ok hraw hreload
  have hreg : config.registration.reload = fileConfig.reload := by
    simp [ServerConfig.registration, hfile]
  obtain ⟨msgIDs, hmsgIDs, hmem⟩ := @registered_ok H N fuel hfuel config.registration
    (accepted_registrable (accepted_spec haccepted.problems).2.1 haccepted.routes) (hreg ▸ hreload)
    (hreg ▸ hsome) (by
      rw [hreg]
      intro range hrange
      rw [registrable_range_end (hranges range hrange)]
      exact hranges range hrange)
  obtain ⟨document, hlater, hdocument, -⟩ := load_routes_ok hload
  obtain ⟨hconverts, hunambiguous, hinside⟩ := accepted_spec hdocument
  refine ⟨document, msgIDs, hlater, hmsgIDs, fun route hroute henabled msgID htakes => ⟨?_, ?_⟩⟩
  · obtain ⟨one, hone⟩ := converts_iff.mp hconverts route hroute henabled
    have hvalid := (to_upstream_route_ok hone).1
    obtain ⟨hmin, hmax⟩ := (matches_iff (valid_range hvalid).1).mp htakes
    simp only [validateRoutesInsideReloadRanges, hreload, Bool.not_true, Bool.false_eq_true,
      if_false] at hinside
    obtain ⟨allowed, hallowed, hlow, hhigh⟩ := inside_reload_ranges hinside hroute henabled hvalid
    refine hmem allowed (hreg ▸ hallowed) msgID (hlow.trans hmin) ?_
    rw [registrable_range_end (hranges allowed hallowed)]
    exact hmax.trans hhigh
  · intro hreserved
    rw [hunambiguous.unreserved route hroute henabled msgID hreserved] at htakes
    cases htakes

end Loader

/-! ## A range that ends at the greatest word -/

/-- A routes file whose accepted range ends at the greatest word. -/
def lastRangeFile : UpstreamRoutesFileConfig :=
  ⟨ascii "routes.yml", 0, ⟨true, [], [⟨0xFFFFFFF0, 0xFFFFFFFF⟩]⟩, .ok (ascii "routes.yml")⟩

def reloadingFile : File Unit Unit :=
  { plainFile [] with routesFile := some lastRangeFile }

/-- A document with one route, up to the greatest word. -/
def lastRoute (msgIDMin : UInt32) : UpstreamRoutesDocument Unit Unit :=
  ⟨1, [plainRoute (ascii "last") msgIDMin 0xFFFFFFFF]⟩

theorem reloaded_routes_registered_last :
    let _ := ParseDuration.seconds
    ∃ config fileConfig,
      reloadingFile.toServerConfig (.ok (lastRoute 0xFFFFFFF8)) = .ok config ∧
      (∃ routes, reloadingFile.loadRoutes fileConfig none none (.ok (lastRoute 0xFFFFFFF4)) =
        .ok routes) ∧
      ∃ msgIDs, registeredMsgIDs 10001 config.registration = some (.ok msgIDs) ∧
        0xFFFFFFFF ∈ msgIDs := by
  let _ := ParseDuration.seconds
  let reload : Server.UpstreamRouteReloadConfig := ⟨true, 30 * second, [⟨0xFFFFFFF0, 0xFFFFFFFF⟩]⟩
  let fileConfig : RoutesFile := ⟨ascii "routes.yml", 2 ^ 20, reload⟩
  have hranges : normalizeUpstreamReloadAcceptedRanges [⟨0xFFFFFFF0, 0xFFFFFFFF⟩] =
      .ok [⟨0xFFFFFFF0, 0xFFFFFFFF⟩] := by
    have hcollected : collectAcceptedRanges 0 0 [⟨0xFFFFFFF0, 0xFFFFFFFF⟩] =
      .ok [⟨0xFFFFFFF0, 0xFFFFFFFF⟩] := rfl
    simp [normalizeUpstreamReloadAcceptedRanges, hcollected, acceptedOverlap]
  have hreload : toServerUpstreamRouteReloadConfig lastRangeFile.reload = .ok reload := by
    show (do
      let timeout ← toDrainTimeout []
      let ranges ← normalizeUpstreamReloadAcceptedRanges [⟨0xFFFFFFF0, 0xFFFFFFFF⟩]
      return (⟨true, timeout, ranges⟩ : Server.UpstreamRouteReloadConfig)) = _
    rw [hranges]
    rfl
  have hfile : toServerUpstreamRoutesFileConfig lastRangeFile = .ok fileConfig := by
    simp only [toServerUpstreamRoutesFileConfig, hreload]
    rfl
  have haccepted : ∀ msgIDMin ∈ [0xFFFFFFF8, 0xFFFFFFF4],
      reloadingFile.validateResolvedRoutes ⟨(lastRoute msgIDMin).routes, some fileConfig⟩ = [] := by
    have hone : ∀ msgIDMin, (collectRanges [] 0 (lastRoute msgIDMin).routes).1 = [] →
        (collectRanges [] 0 (lastRoute msgIDMin).routes).2 =
          [⟨.name (ascii "last"), msgIDMin, 0xFFFFFFFF⟩] →
        validateUpstreamRouteConflicts (lastRoute msgIDMin).routes = [] := by
      intro msgIDMin hproblems hranges
      simp [validateUpstreamRouteConflicts, hproblems, hranges, neighbourProblems]
    simp only [List.forall_mem_cons, File.validateResolvedRoutes, hone 0xFFFFFFF8 rfl rfl,
      hone 0xFFFFFFF4 rfl rfl]
    exact ⟨rfl, rfl, by simp⟩
  have hresolved : reloadingFile.resolveUpstreamRoutes (.ok (lastRoute 0xFFFFFFF8)) =
      .ok ⟨(lastRoute 0xFFFFFFF8).routes, some fileConfig⟩ := by
    simp only [File.resolveUpstreamRoutes, reloadingFile, hfile]
    rfl
  obtain ⟨config, hstart, hconfig⟩ : ∃ config,
      reloadingFile.toServerConfig (.ok (lastRoute 0xFFFFFFF8)) = .ok config ∧
        config.routesFile = some fileConfig := by
    simp only [File.toServerConfig, hresolved, map_error_ok, bind, Except.bind,
      haccepted 0xFFFFFFF8 (by decide)]
    exact ⟨_, rfl, rfl⟩
  obtain ⟨routes, hload⟩ : ∃ routes,
      reloadingFile.loadRoutes fileConfig none none (.ok (lastRoute 0xFFFFFFF4)) = .ok routes := by
    have hdocument : loadUpstreamRoutesDocument (.ok (lastRoute 0xFFFFFFF4)) =
      .ok (lastRoute 0xFFFFFFF4) := rfl
    simp only [File.loadRoutes, hdocument, map_error_ok, bind, Except.bind,
      haccepted 0xFFFFFFF4 (by decide)]
    exact ⟨_, rfl⟩
  obtain ⟨⟨document, msgIDs, hdocument, hmsgIDs, hmem⟩, -⟩ :=
    reloaded_routes_registered hstart hconfig rfl hload (Nat.le_refl 10001)
  cases hdocument
  exact ⟨config, fileConfig, hstart, ⟨routes, hload⟩, msgIDs, hmsgIDs,
    (hmem _ List.mem_cons_self rfl 0xFFFFFFFF rfl).1⟩

end ZCourier.Config
