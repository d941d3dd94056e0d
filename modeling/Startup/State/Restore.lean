import Startup.State.Whole

/-!
# What `state_from_string` reports (`init/state.c`)

`StateImage.stateFromString` keeps the one variable `ret` that the sections of the source share.
It is the return value of a section that fails, and the look-ups of the addresses
assign to it: after the events, no failure is reported.
-/

namespace Startup

open Lib

/-- A section of `state_from_string`: when it fails, `goto out` returns `ret`. -/
def restoreSection {α β : Type} (ret : Int) (m : Restored α)
    (next : α → Except Fault (Int × Option β)) : Except Fault (Int × Option β) :=
  match m with
  | .ok a => next a
  | .error .refused => .ok (ret, none)
  | .error (.fault f) => .error f

/-- `json_object_object_get_ex` as an integer. -/
def foundKey (json : Json) (name : String) : Int :=
  if (json.get? name).isSome then 1 else 0

/-- A section that older versions do not write. -/
def optionalSection {α : Type} (json : Json) (name : String) (absent : α)
    (m : Json → Restored α) : Restored α :=
  match json.get? name with
  | none => .ok absent
  | some value => m value

section Restore

variable (x : Host) (dbusPath : List String → String) (tokener : String → Option Json)
  (parseOnSimple : String → String → Option EventOperator) (enableCgroups : Bool)

/-- The sections of `state_from_string` after the events.  `enableCgroups` is the macro
`ENABLE_CGROUPS`. -/
def stateFromStringSections (events : List EventRecord) (json : Json) :
    Except Fault (Int × Option StateImage) :=
  let ret := foundKey json "control_bus_address"
  restoreSection ret (getOptionalAddress json "control_bus_address") fun controlBusAddress =>
  let ret := if enableCgroups then foundKey json "cgroup_manager_address" else ret
  restoreSection ret
    (if enableCgroups then getOptionalAddress json "cgroup_manager_address" else .ok none)
    fun cgroupManagerAddress =>
  restoreSection ret
    (optionalSection json "conf_sources" [] fun _ => confSourceDeserialiseAll json)
    fun confSources =>
  restoreSection ret (optionalSection json "job_environment" [] jobClassDeserialiseJobEnviron)
    fun jobEnviron =>
  restoreSection ret
    (jobClassDeserialiseAll x dbusPath parseOnSimple confSources events json) fun classes =>
  restoreSection ret (stateDeserialiseResolveDeps ⟨events, classes⟩ json) fun resolved =>
  .ok (0, some
    ⟨resolved.1, controlBusAddress, cgroupManagerAddress, confSources, jobEnviron, resolved.2⟩)

/-- `state_from_string`, from its `json_tokener_parse_verbose` on. -/
def StateImage.stateFromString (text : String) : Except Fault (Int × Option StateImage) :=
  match tokener text with
  | none => .ok (-1, none)
  | some json =>
    if !json.isObject then .ok (-1, none)
    else
      restoreSection (-1) (eventDeserialiseAll json) fun events =>
        stateFromStringSections x dbusPath parseOnSimple enableCgroups events json

/-! ## What has to be restored -/

/-- Every source is restored. -/
def confSourcesStrict (json : Json) : Restored (List ConfSource) := do
  let items ← getArray json "conf_sources"
  items.mapM fun item => do
    restoreIf item.isObject
    confSourceDeserialise item

/-- The sections after the events, each of which has to be restored. -/
def laterSections (events : List EventRecord) (json : Json) : Restored StateImage := do
  let controlBusAddress ← getOptionalAddress json "control_bus_address"
  let cgroupManagerAddress ←
    (if enableCgroups then getOptionalAddress json "cgroup_manager_address" else .ok none)
  let confSources ← optionalSection json "conf_sources" [] fun _ => confSourcesStrict json
  let jobEnviron ← optionalSection json "job_environment" [] jobClassDeserialiseJobEnviron
  let classes ← jobClassDeserialiseAll x dbusPath parseOnSimple confSources events json
  let resolved ← stateDeserialiseResolveDeps ⟨events, classes⟩ json
  .ok ⟨resolved.1, controlBusAddress, cgroupManagerAddress, confSources, jobEnviron, resolved.2⟩

variable {x dbusPath tokener parseOnSimple enableCgroups}

/-! ## What is returned -/

/-- When every source can be restored, none is left out. -/
theorem confSourcesFrom_of_strict {items : List Json} {sources : List ConfSource}
    (h : (items.mapM fun item => do
      restoreIf item.isObject
      confSourceDeserialise item) = .ok sources) : confSourcesFrom items = .ok sources := by
  induction items generalizing sources with
  | nil => exact h
  | cons item items ih =>
    rw [List.mapM_cons, bind_eq_ok] at h
    obtain ⟨source, hsource, h⟩ := h
    rw [check_bind_eq_ok] at hsource
    obtain ⟨hobject, hsource⟩ := hsource
    rw [bind_eq_ok] at h
    obtain ⟨rest, hrest, h⟩ := h
    cases h
    rw [confSourcesFrom, check_bind_eq_ok]
    refine ⟨hobject, ?_⟩
    simp only [hsource, ih hrest, bind, Except.bind]

theorem confSourceDeserialiseAll_of_strict {json : Json} {sources : List ConfSource}
    (h : confSourcesStrict json = .ok sources) :
    confSourceDeserialiseAll json = .ok sources := by
  rw [confSourcesStrict, bind_eq_ok] at h
  obtain ⟨items, hitems, h⟩ := h
  rw [confSourceDeserialiseAll, bind_eq_ok]
  exact ⟨items, hitems, confSourcesFrom_of_strict h⟩

/-- A text all sections of which can be restored is accepted. -/
theorem stateFromStringSections_of_laterSections {events : List EventRecord} {json : Json}
    {image : StateImage}
    (h : laterSections x dbusPath parseOnSimple enableCgroups events json = .ok image) :
    stateFromStringSections x dbusPath parseOnSimple enableCgroups events json =
      .ok (0, some image) := by
  simp only [laterSections, bind_eq_ok] at h
  obtain ⟨bus, hbus, manager, hmanager, sources, hsources, environ, henviron, classes, hclasses,
    resolved, hresolved, himage⟩ := h
  cases himage
  have hall : (optionalSection json "conf_sources" [] fun _ => confSourceDeserialiseAll json) =
      .ok sources := by
    rw [optionalSection] at hsources ⊢
    split at hsources
    · exact hsources
    · exact confSourceDeserialiseAll_of_strict hsources
  simp only [stateFromStringSections, restoreSection, hbus, hmanager, hall, henviron, hclasses,
    hresolved]

end Restore

end Startup
