import TrwMcp.Migration.Store

/-!
# No row is lost on the way

Until the project store is emptied or replaced its rows are in it, and by then they are in the
namespace; the condition on a run is that this is so for the store a rollback replaces.
-/

namespace TrwMcp.Migration

open Lib

variable {R : Type}

theorem has_set {rows : Rows R} {id other : String} {row : R} (h : Dict.has rows id = true) :
    Dict.has (Dict.set rows other row) id = true := by
  rw [Dict.has, Dict.lookup_set]
  split
  · rfl
  · exact h

theorem has_set_self {rows : Rows R} {id : String} {row : R} :
    Dict.has (Dict.set rows id row) id = true := by
  rw [Dict.has, Dict.lookup_set_self]
  rfl

theorem has_mergeRows {held moved : Rows R} {id : String} :
    Dict.has (mergeRows held moved) id = true ↔
      Dict.has held id = true ∨ Dict.has moved id = true := by
  have hmem : ∀ rows : Rows R, Dict.has rows id = true ↔ id ∈ rows.map (·.1) := fun rows =>
    Dict.lookup_isSome_iff
  rw [hmem, hmem, hmem, mergeRows, List.map_append, List.mem_append]
  constructor
  · rintro (h | h)
    · exact .inl h
    · obtain ⟨row, hrow, rfl⟩ := List.mem_map.mp h
      exact .inr (List.mem_map.mpr ⟨row, (List.mem_filter.mp hrow).1, rfl⟩)
  · rintro (h | h)
    · exact .inl h
    · by_cases hheld : id ∈ held.map (·.1)
      · exact .inl hheld
      · obtain ⟨row, hrow, rfl⟩ := List.mem_map.mp h
        refine .inr (List.mem_map.mpr ⟨row, List.mem_filter.mpr ⟨hrow, ?_⟩, rfl⟩)
        simpa using mt (hmem held).mp hheld

/-- Every identifier of the first store is one of the second. -/
def Within (rows rows' : Rows R) : Prop := ∀ id, Dict.has rows id = true → Dict.has rows' id = true

/-- What the stores say while a command is under way. -/
def Phase.Keeps (w : World R) : Phase R → Prop
  | .idle => True
  | .copied ns rows | .imported ns rows => rows = w.project ∧ w.pin.getD ns = ns
  | .cutOver ns => Within w.project (w.user ns) ∧ w.pin.getD ns = ns ∧ ns ∈ w.cutovers
  | .pinned => ∃ ns, w.pin = some ns ∧ Within w.project (w.user ns)
  | .rollingBack ns => w.pin = some ns
  | .staged ns rows => w.pin = some ns ∧ rows = w.user ns
  | .swapped => ∃ ns, w.pin = some ns ∧ Within (w.user ns) w.project

/-- A row is in the namespace the pin selects, or in the project store. -/
def World.Held (w : World R) (id : String) : Prop :=
  (∃ ns, w.pin = some ns ∧ Dict.has (w.user ns) id = true) ∨ Dict.has w.project id = true

structure Inv (w : World R) : Prop where
  held : ∀ id ∈ w.written, w.Held id
  phase : w.phase.Keeps w
  recorded : ∀ ns, w.pin = some ns → ns ∈ w.cutovers

/-- An unpinned checkout, before any command. -/
def World.start (project : Rows R) (user : String → Rows R) : World R :=
  { project, user, written := project.map (·.1) }

theorem Inv.start (project : Rows R) (user : String → Rows R) : Inv (World.start project user) where
  held id hid := .inr (Dict.lookup_isSome_iff.mpr hid)
  phase := trivial
  recorded ns h := by cases h

/-- The condition on one step: the store a rollback replaces has no row that is not in what
replaces it. -/
def Regular (w : World R) : Deed R → Prop
  | .rollbackSwap => ∀ ns rows, w.phase = .staged ns rows → Within w.project rows
  | _ => True

/-! ## Steps -/

theorem Inv.write {w : World R} (h : Inv w) (id : String) (row : R) :
    Inv (w.exec (.write id row)) := by
  simp only [World.exec]
  split
  · exact h
  · next hexclusive =>
      refine ⟨fun id' hid' => ?_, ?_, h.recorded⟩
      · rcases List.mem_append.mp hid' with hid' | hid'
        · exact (h.held id' hid').imp_right has_set
        · rw [List.mem_singleton.mp hid']
          exact .inr has_set_self
      · have hphase := h.phase
        cases hp : w.phase with
        | idle => trivial
        | copied ns rows => simp [hp, Phase.exclusive] at hexclusive
        | imported ns rows => simp [hp, Phase.exclusive] at hexclusive
        | cutOver ns => simp [hp, Phase.exclusive] at hexclusive
        | pinned => simp [hp, Phase.exclusive] at hexclusive
        | rollingBack ns =>
            rw [hp] at hphase
            exact hphase
        | staged ns rows =>
            rw [hp] at hphase
            exact hphase
        | swapped =>
            rw [hp] at hphase
            obtain ⟨ns, hpin, hwithin⟩ := hphase
            exact ⟨ns, hpin, fun id' hid' => has_set (hwithin id' hid')⟩

theorem Inv.grow {w : World R} (h : Inv w) {ns : String} {rows : Rows R} {written : List String}
    (hgrows : Within (w.user ns) rows)
    (hwritten : ∀ id ∈ written, id ∈ w.written ∨ (w.pin = some ns ∧ Dict.has rows id = true))
    (hdaemon : w.phase.daemonStopped = false) :
    Inv { w with user := Function.update w.user ns rows, written } := by
  have hkeep : ∀ ns', Within (w.user ns') (Function.update w.user ns rows ns') := by
    intro ns' id hid
    by_cases hns : ns' = ns
    · rw [hns, Function.update_self]
      exact hgrows id (hns ▸ hid)
    · rwa [Function.update_of_ne hns]
  refine ⟨fun id hid => ?_, ?_, h.recorded⟩
  · rcases hwritten id hid with hid | ⟨hpin, hhas⟩
    · rcases h.held id hid with ⟨ns', hpin, hhas⟩ | hhas
      · exact .inl ⟨ns', hpin, hkeep ns' id hhas⟩
      · exact .inr hhas
    · refine .inl ⟨ns, hpin, ?_⟩
      change Dict.has (Function.update w.user ns rows ns) id = true
      rwa [Function.update_self]
  · have hphase := h.phase
    cases hp : w.phase with
    | idle => trivial
    | copied ns' rows' =>
        rw [hp] at hphase
        exact hphase
    | imported ns' rows' =>
        rw [hp] at hphase
        exact hphase
    | cutOver ns' =>
        rw [hp] at hphase
        exact ⟨fun id hid => hkeep ns' id (hphase.1 id hid), hphase.2⟩
    | pinned =>
        rw [hp] at hphase
        obtain ⟨ns', hpin, hwithin⟩ := hphase
        exact ⟨ns', hpin, fun id hid => hkeep ns' id (hwithin id hid)⟩
    | rollingBack ns' => simp [hp, Phase.daemonStopped] at hdaemon
    | staged ns' rows' => simp [hp, Phase.daemonStopped] at hdaemon
    | swapped => simp [hp, Phase.daemonStopped] at hdaemon

theorem Inv.goOn {w : World R} (h : Inv w) {phase : Phase R}
    (hphase : phase.Keeps { w with phase }) : Inv { w with phase } :=
  ⟨h.held, hphase, h.recorded⟩

theorem Inv.apply {w : World R} (h : Inv w) {deed : Deed R}
    (hdeed : (∃ identity, deed = .applyBegin identity) ∨ (∃ takes, deed = .applyImport takes) ∨
      deed = .applyCutover ∨ deed = .applyPin ∨ deed = .applyEmpty) : Inv (w.exec deed) := by
  have hphase := h.phase
  rcases hdeed with ⟨identity, rfl⟩ | ⟨takes, rfl⟩ | rfl | rfl | rfl
  · simp only [World.exec]
    split
    · split
      · exact h
      · refine h.goOn ⟨rfl, ?_⟩
        change w.pin.getD (w.pin.getD identity) = w.pin.getD identity
        cases w.pin <;> rfl
    · exact h
  · simp only [World.exec]
    cases hp : w.phase with
    | copied ns rows =>
        rw [hp] at hphase
        simp only
        have hgrows : Within (w.user ns)
            (mergeRows (w.user ns) (rows.filter fun row => takes row.1)) :=
          fun id hid => has_mergeRows.mpr (.inl hid)
        have hgrown := h.grow hgrows (fun id (hid : id ∈ w.written) => .inl hid)
          (by simp [hp, Phase.daemonStopped])
        exact hgrown.goOn hphase
    | _ => exact h
  · simp only [World.exec]
    cases hp : w.phase with
    | imported ns rows =>
        rw [hp] at hphase
        simp only
        split
        · next hall =>
            refine ⟨h.held, ⟨fun id hid => ?_, hphase.2, List.mem_append_right _ (by simp)⟩,
              fun ns' hns' => List.mem_append_left _ (h.recorded ns' hns')⟩
            rw [← hphase.1] at hid
            obtain ⟨row, hrow, rfl⟩ := List.mem_map.mp (Dict.lookup_isSome_iff.mp hid)
            exact List.all_eq_true.mp hall row hrow
        · exact h.goOn trivial
    | _ => exact h
  · simp only [World.exec]
    cases hp : w.phase with
    | cutOver ns =>
        rw [hp] at hphase
        obtain ⟨hwithin, hpin, hrecorded⟩ := hphase
        simp only [hpin]
        refine ⟨fun id hid => ?_, ⟨ns, rfl, hwithin⟩, fun ns' hns' => ?_⟩
        · rcases h.held id hid with ⟨ns', hpin', hhas⟩ | hhas
          · rw [hpin', Option.getD_some] at hpin
            exact .inl ⟨ns, rfl, hpin ▸ hhas⟩
          · exact .inr hhas
        · obtain rfl := Option.some.inj hns'
          exact hrecorded
    | _ => exact h
  · simp only [World.exec]
    cases hp : w.phase with
    | pinned =>
        rw [hp] at hphase
        obtain ⟨ns, hpin, hwithin⟩ := hphase
        refine ⟨fun id hid => ?_, trivial, h.recorded⟩
        rcases h.held id hid with hhas | hhas
        · exact .inl hhas
        · exact .inl ⟨ns, hpin, hwithin id hhas⟩
    | _ => exact h

theorem Inv.rollback {w : World R} (h : Inv w) {deed : Deed R} (hregular : Regular w deed)
    (hdeed : deed = .rollbackBegin ∨ deed = .rollbackCopy ∨ deed = .rollbackSwap ∨
      deed = .rollbackUnpin) : Inv (w.exec deed) := by
  have hphase := h.phase
  rcases hdeed with rfl | rfl | rfl | rfl
  · simp only [World.exec]
    split
    · next pin hpin =>
        split
        · exact h.goOn hpin
        · exact h
    · exact h
  · simp only [World.exec]
    cases hp : w.phase with
    | rollingBack ns =>
        rw [hp] at hphase
        exact h.goOn ⟨hphase, rfl⟩
    | _ => exact h
  · simp only [World.exec]
    cases hp : w.phase with
    | staged ns rows =>
        have hwithin := hregular ns rows hp
        rw [hp] at hphase
        obtain ⟨hpin, rfl⟩ := hphase
        refine ⟨fun id hid => ?_, ⟨ns, hpin, fun id hid => hid⟩, h.recorded⟩
        rcases h.held id hid with ⟨ns', hpin', hhas⟩ | hhas
        · exact .inl ⟨ns', hpin', hhas⟩
        · exact .inl ⟨ns, hpin, hwithin id hhas⟩
    | _ => exact h
  · simp only [World.exec]
    cases hp : w.phase with
    | swapped =>
        rw [hp] at hphase
        obtain ⟨ns, hpin, hwithin⟩ := hphase
        refine ⟨fun id hid => ?_, trivial, fun ns' hns' => by cases hns'⟩
        rcases h.held id hid with ⟨ns', hpin', hhas⟩ | hhas
        · obtain rfl := Option.some.inj (hpin.symm.trans hpin')
          exact .inr (hwithin id hhas)
        · exact .inr hhas
    | _ => exact h

theorem Inv.exec {w : World R} (h : Inv w) {deed : Deed R} (hregular : Regular w deed) :
    Inv (w.exec deed) := by
  cases deed with
  | write id row => exact h.write id row
  | writePinned id row =>
      simp only [World.exec]
      split
      · next pin hpin =>
          split
          · exact h
          · next hdaemon =>
              refine h.grow (fun id' hid' => has_set hid') (fun id' hid' => ?_)
                (by simpa using hdaemon)
              rcases List.mem_append.mp hid' with hid' | hid'
              · exact .inl hid'
              · rw [List.mem_singleton.mp hid']
                exact .inr ⟨hpin, has_set_self⟩
      · exact h
  | applyBegin identity => exact h.apply (.inl ⟨identity, rfl⟩)
  | applyImport takes => exact h.apply (.inr (.inl ⟨takes, rfl⟩))
  | applyCutover => exact h.apply (by simp)
  | applyPin => exact h.apply (by simp)
  | applyEmpty => exact h.apply (by simp)
  | rollbackBegin => exact h.rollback hregular (by simp)
  | rollbackCopy => exact h.rollback hregular (by simp)
  | rollbackSwap => exact h.rollback hregular (by simp)
  | rollbackUnpin => exact h.rollback hregular (by simp)
  | stop => exact h.goOn trivial

theorem Inv.execAll {w : World R} (h : Inv w) {deeds : List (Deed R)}
    (hregular : ∀ deed ∈ deeds, ∀ v : World R, Regular v deed) : Inv (w.execAll deeds) := by
  induction deeds generalizing w with
  | nil => exact h
  | cons deed deeds ih =>
      exact ih (h.exec (hregular deed (by simp) w)) fun deed' hdeed' =>
        hregular deed' (List.mem_cons_of_mem _ hdeed')

/-! ## Commands from start to end -/

theorem has_of_held {w : World R} {ns : String} (hpin : w.pin = some ns) (hempty : w.project = [])
    {id : String} (h : w.Held id) : Dict.has (w.user ns) id = true := by
  rcases h with ⟨ns', hpin', hhas⟩ | hhas
  · obtain rfl := Option.some.inj (hpin.symm.trans hpin')
    exact hhas
  · rw [hempty] at hhas
    cases hhas

theorem all_has_mergeRows (held moved : Rows R) :
    (moved.all fun row => Dict.has (mergeRows held moved) row.1) = true := by
  refine List.all_eq_true.mpr fun row hrow => has_mergeRows.mpr (.inr ?_)
  exact Dict.lookup_isSome_iff.mpr (List.mem_map_of_mem hrow)

theorem execAll_applyDeeds {w : World R} (hidle : w.phase = .idle) (identity : String) :
    (w.execAll (applyDeeds identity)).phase = .idle ∧
      (w.execAll (applyDeeds identity)).pin = some (w.pin.getD identity) ∧
      (w.execAll (applyDeeds identity)).project = [] ∧
      (w.execAll (applyDeeds identity)).written = w.written := by
  by_cases hrefused : (w.pin.isSome && w.project.isEmpty) = true
  · have hsame : w.execAll (applyDeeds identity) = w := by
      simp only [World.execAll, applyDeeds, List.foldl_cons, List.foldl_nil, World.exec, hidle,
        hrefused, if_true]
    obtain ⟨hpin, hempty⟩ := Bool.and_eq_true_iff.mp hrefused
    obtain ⟨ns, hpin⟩ := Option.isSome_iff_exists.mp hpin
    rw [hsame]
    exact ⟨hidle, by rw [hpin, Option.getD_some], List.isEmpty_iff.mp hempty, rfl⟩
  · have hall := all_has_mergeRows (w.user (w.pin.getD identity)) w.project
    have hgetD : w.pin.getD (w.pin.getD identity) = w.pin.getD identity := by cases w.pin <;> rfl
    simp [World.execAll, applyDeeds, World.exec, hidle, hrefused, hall, hgetD]

theorem Inv.apply_completes {w : World R} (h : Inv w) (hidle : w.phase = .idle)
    (identity : String) : ∀ id ∈ w.written,
      Dict.has ((w.execAll (applyDeeds identity)).user (w.pin.getD identity)) id = true := by
  obtain ⟨-, hpin, hempty, hwritten⟩ := execAll_applyDeeds hidle identity
  have hinv : Inv (w.execAll (applyDeeds identity)) := by
    refine h.execAll fun deed hdeed v => ?_
    simp only [applyDeeds, List.mem_cons, List.not_mem_nil, or_false] at hdeed
    rcases hdeed with rfl | rfl | rfl | rfl | rfl <;> trivial
  intro id hid
  exact has_of_held hpin hempty (hinv.held id (hwritten.symm ▸ hid))

theorem Inv.execAll_rollbackDeeds {w : World R} (h : Inv w) (hidle : w.phase = .idle) {ns : String}
    (hpin : w.pin = some ns) :
    w.execAll rollbackDeeds = { w with project := w.user ns, pin := none, phase := .idle } := by
  simp [World.execAll, rollbackDeeds, World.exec, hidle, hpin, h.recorded ns hpin]

theorem Inv.rollback_completes {w : World R} (h : Inv w) {ns : String} (hpin : w.pin = some ns)
    (hwithin : Within w.project (w.user ns)) {id : String}
    (hid : id ∈ w.written ∨ Dict.has (w.user ns) id = true ∨ Dict.has w.project id = true) :
    Dict.has (w.user ns) id = true := by
  rcases hid with hid | hid | hid
  · rcases h.held id hid with ⟨ns', hpin', hhas⟩ | hhas
    · obtain rfl := Option.some.inj (hpin.symm.trans hpin')
      exact hhas
    · exact hwithin id hhas
  · exact hid
  · exact hwithin id hid

theorem Inv.swap_keeps_iff {w : World R} (h : Inv w) {ns : String} {rows : Rows R}
    (hphase : w.phase = .staged ns rows) :
    (∀ id, w.Held id → (w.exec .rollbackSwap).Held id) ↔ Within w.project rows := by
  have hkeeps := h.phase
  rw [hphase] at hkeeps
  obtain ⟨hpin, rfl⟩ := hkeeps
  have hexec : w.exec .rollbackSwap = { w with project := w.user ns, phase := .swapped } := by
    simp only [World.exec, hphase]
  rw [hexec]
  constructor
  · intro hkeep id hid
    rcases hkeep id (.inr hid) with ⟨ns', hpin', hhas⟩ | hhas
    · obtain rfl := Option.some.inj (hpin.symm.trans hpin')
      exact hhas
    · exact hhas
  · rintro hwithin id (hhas | hhas)
    · exact .inl hhas
    · exact .inr (hwithin id hhas)

/-! ## Runs -/

/-- One step that meets the condition. -/
def RegularStep (w : World R) (deed : Deed R) (w' : World R) : Prop :=
  w' = w.exec deed ∧ Regular w deed

/-- In a run of regular steps every row that was written is where the pin selects or in the project
store, and a rerun of either command brings it to where that command leaves the rows; and a swap
that is not regular loses a row. -/
theorem no_row_lost {project : Rows R} {user : String → Rows R} {deeds : List (Deed R)}
    {w : World R} (h : Run RegularStep (World.start project user) deeds w) :
    (∀ id ∈ w.written, w.Held id) ∧
    (w.phase = .idle → ∀ identity, ∃ ns,
      (w.execAll (applyDeeds identity)).phase = .idle ∧
      (w.execAll (applyDeeds identity)).pin = some ns ∧
      (w.execAll (applyDeeds identity)).project = [] ∧
      ∀ id ∈ w.written, Dict.has ((w.execAll (applyDeeds identity)).user ns) id = true) ∧
    (w.phase = .idle → ∀ ns, w.pin = some ns → Within w.project (w.user ns) →
      (w.execAll rollbackDeeds).phase = .idle ∧ (w.execAll rollbackDeeds).pin = none ∧
      ∀ id, (id ∈ w.written ∨ Dict.has (w.user ns) id = true ∨ Dict.has w.project id = true) →
        Dict.has (w.execAll rollbackDeeds).project id = true) ∧
    (∀ ns rows, w.phase = .staged ns rows →
      ((∀ id, w.Held id → (w.exec .rollbackSwap).Held id) ↔ Regular w .rollbackSwap)) := by
  have hinv : Inv w := by
    refine h.invariant (I := Inv) (Inv.start project user) ?_
    rintro v deed v' hv ⟨rfl, hregular⟩
    exact hv.exec hregular
  refine ⟨hinv.held, fun hidle identity => ?_, fun hidle ns hpin hwithin => ?_,
    fun ns rows hphase => ?_⟩
  · obtain ⟨hphase, hpin, hempty, -⟩ := execAll_applyDeeds hidle identity
    exact ⟨_, hphase, hpin, hempty, hinv.apply_completes hidle identity⟩
  · rw [hinv.execAll_rollbackDeeds hidle hpin]
    exact ⟨rfl, rfl, fun id hid => hinv.rollback_completes hpin hwithin hid⟩
  · rw [hinv.swap_keeps_iff hphase]
    constructor
    · intro hwithin ns' rows' hphase'
      rw [hphase, Phase.staged.injEq] at hphase'
      exact hphase'.2 ▸ hwithin
    · exact fun hregular => hregular ns rows hphase

/-! ### A row an older server wrote -/

theorem execAll_run {step : World R → Deed R → World R → Prop} (w : World R)
    {deeds : List (Deed R)} (hstep : ∀ deed ∈ deeds, ∀ v, step v deed (v.exec deed)) :
    Run step w deeds (w.execAll deeds) := by
  induction deeds using List.reverseRecOn with
  | nil => exact .nil
  | append_singleton deeds deed ih =>
      rw [World.execAll, List.foldl_append]
      refine (ih fun deed' hdeed' => ?_).snoc (hstep deed (by simp) _)
      exact hstep deed' (List.mem_append_left _ hdeed')

def sampleStart : World Nat := World.start [("a", 1)] fun _ => []

/-- A migration, and what an older server writes into the store it left empty. -/
def strayDeeds : List (Deed Nat) := applyDeeds "project:sample" ++ [.write "b" 2]

theorem no_row_lost_sample : (sampleStart.execAll strayDeeds).Held "b" := by
  have hrun : Run RegularStep sampleStart strayDeeds (sampleStart.execAll strayDeeds) := by
    refine execAll_run sampleStart fun deed hdeed v => ⟨rfl, ?_⟩
    simp only [strayDeeds, applyDeeds, List.cons_append, List.nil_append, List.mem_cons,
      List.not_mem_nil, or_false] at hdeed
    rcases hdeed with rfl | rfl | rfl | rfl | rfl | rfl <;> trivial
  exact (no_row_lost hrun).1 "b" (by decide)

/-- The rollback of that checkout ends with the row in neither store. -/
theorem stray_row_lost :
    ∃ deeds : List (Deed Nat), ∃ w, Run (fun w deed w' => w' = w.exec deed) sampleStart deeds w ∧
      w.phase.exclusive = false ∧ w.pin = none ∧ "b" ∈ w.written ∧ ¬w.Held "b" ∧
      Dict.has (w.user "project:sample") "b" = false := by
  refine ⟨strayDeeds ++ rollbackDeeds, _, execAll_run sampleStart fun _ _ _ => rfl,
    by decide, by decide, by decide, ?_, by decide⟩
  have hpin : (sampleStart.execAll (strayDeeds ++ rollbackDeeds)).pin = none := by decide
  rintro (⟨ns, hns, -⟩ | hhas)
  · rw [hpin] at hns
    cases hns
  · revert hhas
    decide

end TrwMcp.Migration
