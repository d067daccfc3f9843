import TrwMcp.Rollback.Exact

/-!
# A rollback conserves

The three parts together, for whole runs, and four runs that show why each condition is there.
-/

namespace TrwMcp.Rollback

open Lib

theorem Accounted.keeps_bytes {w : World} (h : Accounted w) (answer : Answer) {i : Nat}
    (hi : i ∈ w.others) :
    (w.act answer).nodes i = w.nodes i ∨ ∃ content mode mode',
      w.nodes i = .file content mode ∧ (w.act answer).nodes i = .file content mode' := by
  have hmade : ∀ node, Function.update w.nodes w.next node i = w.nodes i :=
    fun node => Function.update_of_ne (h.fresh i hi).ne _ _
  have hsound := h.stage
  cases hs : w.stage with
  | validate => exact .inl (by simp only [World.act, hs])
  | clear =>
      refine .inl ?_
      simp only [World.act, hs, World.look]
      repeat' split
      all_goals rfl
  | looked rel mode =>
      refine .inl ?_
      simp only [World.act, hs, World.compare]
      repeat' split
      all_goals rfl
  | chmod rel mode =>
      simp only [World.act, hs, World.chmod]
      split
      · exact .inl rfl
      · next j hj =>
          split
          · next content old hnode =>
              by_cases hij : i = j
              · subst hij
                exact .inr ⟨content, old, mode, hnode, Function.update_self ..⟩
              · exact .inl (Function.update_of_ne hij _ _)
          · exact .inl rfl
  | putBack rel again =>
      refine .inl ?_
      simp only [World.act, hs, World.copyBack, World.retryOrSave, World.putBackDone, World.toSave]
      repeat' split
      all_goals first
        | rfl
        | exact hmade _
  | filling rel j again =>
      rw [hs] at hsound
      have hij : i ≠ j := fun heq => hsound.2.1 (heq ▸ hi)
      refine .inl ?_
      simp only [World.act, hs, World.fill, World.retryOrSave, World.putBackDone, World.toSave]
      repeat' split
      all_goals first
        | rfl
        | exact Function.update_of_ne hij _ _
  | unlinking rel j again why =>
      refine .inl ?_
      simp only [World.act, hs, World.retryOrSave, World.toSave]
      split <;> rfl
  | _ =>
      refine .inl ?_
      simp only [World.act, hs, World.capture, World.verify, World.linkBack, World.recheck,
        World.moveAside, World.recheckAside, World.linkAside, World.saveInTrash, World.refuse]
      repeat' split
      all_goals rfl

/-- What stays beside its name is named in a warning. -/
def World.Named (w : World) : Prop :=
  ∀ i, (Place.beside, i) ∈ w.kept → ∃ rel, Note.copyAt rel i ∈ w.notes

theorem World.Named.grows {w w' : World} (h : w.Named)
    (hkept : ∀ i, (Place.beside, i) ∈ w'.kept → (Place.beside, i) ∈ w.kept)
    (hnotes : ∀ note ∈ w.notes, note ∈ w'.notes) : w'.Named := by
  intro i hi
  obtain ⟨rel, hrel⟩ := h i (hkept i hi)
  exact ⟨rel, hnotes _ hrel⟩

theorem World.Named.act {w : World} (h : w.Named) (answer : Answer) : (w.act answer).Named := by
  have hsame : ∀ {w' : World}, w'.kept = w.kept → (∃ notes, w'.notes = w.notes ++ notes) →
      w'.Named := by
    rintro w' hkept ⟨notes, hnotes⟩
    exact h.grows (fun i hi => hkept ▸ hi) fun note hn => hnotes ▸ List.mem_append_left _ hn
  have hquiet : ∀ {w' : World}, w'.kept = w.kept → w'.notes = w.notes → w'.Named :=
    fun hkept hnotes => hsame hkept ⟨[], by rw [hnotes, List.append_nil]⟩
  cases hs : w.stage with
  | capture rel current =>
      simp only [World.act, hs, World.capture, World.refuse, World.leave]
      repeat' split
      · exact hquiet rfl rfl
      · refine h.grows (fun i hi => ?_) fun note hn => hn
        simpa using hi
      · exact hquiet rfl rfl
      · exact hsame rfl ⟨_, rfl⟩
  | verified rel current i =>
      simp only [World.act, hs]
      exact h.grows (fun j hj => List.mem_of_mem_erase hj) fun note hn => hn
  | asideChanged rel i =>
      simp only [World.act, hs, World.linkAside]
      split
      · exact hquiet rfl rfl
      · intro j hj
        rcases List.mem_append.mp hj with hj | hj
        · obtain ⟨r, hr⟩ := h j hj
          exact ⟨r, List.mem_append_left _ hr⟩
        · obtain rfl : j = i := by simpa using hj
          exact ⟨rel, List.mem_append_right _ (by simp)⟩
  | _ =>
      simp only [World.act, hs, World.look, World.compare, World.chmod, World.verify,
        World.linkBack, World.recheck, World.moveAside, World.recheckAside, World.copyBack,
        World.fill, World.saveInTrash, World.refuse, World.leave, World.leaveIntact, World.moved,
        World.putBackDone, World.toSave, World.retryOrSave]
      repeat' split
      all_goals first
        | exact hquiet rfl rfl
        | exact hsame rfl ⟨_, rfl⟩

theorem exec_snapshot (w : World) (deed : Deed) : (w.exec deed).snapshot = w.snapshot := by
  cases deed with
  | act answer =>
      simp only [World.exec]
      cases hs : w.stage with
      | _ =>
          simp only [World.act, hs, World.look, World.compare, World.chmod, World.capture,
            World.verify, World.linkBack, World.recheck, World.moveAside, World.recheckAside,
            World.linkAside, World.copyBack, World.fill, World.saveInTrash, World.refuse,
            World.leave, World.leaveIntact, World.moved, World.putBackDone, World.toSave,
            World.retryOrSave]
          repeat' split
          all_goals rfl
  | replace rel node => rfl
  | remove rel => rfl
  | write i content =>
      simp only [World.exec]
      split <;> rfl

/-- A rollback before its first step. -/
structure Started (w : World) : Prop where
  stage : w.stage = .validate
  kept : w.kept = []
  intact : w.intact = []
  restored : w.restored = []
  todo : w.todo.Nodup
  keys : (w.snapshot.map (·.1)).Nodup
  plain : ∀ rel, Dict.lookup w.snapshot rel ≠ some .special
  named : ∀ rel i, w.names rel = some i → i < w.next
  others : ∀ i ∈ w.others, ∃ rel, w.names rel = some i

/-- A name on the surface that the run left as a regular file, as the snapshot's link, or absent;
another name of the same file is the same in the snapshot. -/
structure World.Restorable (w : World) (rel : String) : Prop where
  surface : w.names rel ≠ none → rel ∈ w.todo
  alike : ∀ i r, w.names rel = some i → w.names r = some i → w.Alike r rel
  plain : w.Plain rel

/-- One step that meets the condition. -/
def RegularStep (w : World) (deed : Deed) (w' : World) : Prop :=
  w' = w.exec deed ∧ Regular w deed

/-- One that leaves a name to the rollback, too. -/
def QuietStep (rel : String) (w : World) (deed : Deed) (w' : World) : Prop :=
  RegularStep w deed w' ∧ Quiet rel w deed

/-- What a run of regular steps keeps. -/
structure Kept (w₀ w : World) : Prop where
  accounted : Accounted w
  listed : Listed w
  left : Left w
  named : w.Named
  snapshot : w.snapshot = w₀.snapshot

theorem Started.kept_self {w : World} (h : Started w) : Kept w w where
  accounted :=
    { there := fun i hi => .inl (.inl (h.others i hi))
      fresh := fun i hi => by
        obtain ⟨rel, hrel⟩ := h.others i hi
        exact h.named rel i hrel
      named := h.named
      kept := by simp [h.kept]
      stage := by
        rw [h.stage]
        trivial }
  listed :=
    { keys := h.keys
      nodup := by simpa [World.queue, h.stage, Stage.current] using h.todo
      ahead := by simp [h.intact, h.restored]
      first := fun _ _ => h.restored
      reached := by simp [h.stage, Stage.restoring]
      ended := by simp [h.stage] }
  left :=
    { plain := h.plain
      left := by simp [World.Settled, h.intact, h.restored]
      filling := by simp [h.stage] }
  named := by simp [World.Named, h.kept]
  snapshot := rfl

theorem Kept.exec {w₀ w : World} (h : Kept w₀ w) {deed : Deed} (hregular : Regular w deed) :
    Kept w₀ (w.exec deed) where
  accounted := h.accounted.exec hregular
  listed := h.listed.exec deed
  left := h.left.exec h.listed h.accounted deed
  named := by
    cases deed with
    | act answer => exact h.named.act answer
    | replace rel node => exact h.named
    | remove rel => exact h.named
    | write i content =>
        simp only [World.exec]
        split <;> exact h.named
  snapshot := (exec_snapshot w deed).trans h.snapshot

theorem Started.exact_self {w : World} (h : Started w) {rel : String} (hrel : w.Restorable rel) :
    Exact rel w where
  alone := hrel.alike
  apart := by simp [h.stage, Stage.held]
  unfilled := by simp [h.stage]
  chmods := by simp [h.stage]
  alive := by simp [h.stage]
  waits _ _ := by
    refine ⟨fun _ => hrel.plain, fun hnot => ⟨fun hin => ?_, fun _ => ?_⟩⟩
    · rw [h.intact] at hin
      cases hin
    · by_contra hsome
      exact hnot (hrel.surface hsome)
  restores _ hr := by
    rw [h.stage] at hr
    cases hr
  works habout := by
    rw [h.stage] at habout
    cases habout

/-- In every run of regular steps: another writer's file that this writer has not taken away has a
place or is what the run wrote, and the rollback changes at most its mode; what stays beside its
name is named; in the end a pre-update file is at its name, if no other writer has written there
since, or saved, or named as kept in the snapshot; and a name on which nobody else wrote holds what
the snapshot holds, if nothing was refused. -/
theorem rollback_conserves {w₀ w : World} {deeds : List Deed} (hstart : Started w₀)
    (h : Run RegularStep w₀ deeds w) :
    (∀ i ∈ w.others, w.Placed i ∨ w.Own i) ∧
    (∀ answer, ∀ i ∈ w.others, (w.act answer).nodes i = w.nodes i ∨ ∃ content mode mode',
      w.nodes i = .file content mode ∧ (w.act answer).nodes i = .file content mode') ∧
    (∀ i, (Place.beside, i) ∈ w.kept → ∃ rel, Note.copyAt rel i ∈ w.notes) ∧
    (w.stage = .done → ∀ rel node, Dict.lookup w₀.snapshot rel = some node →
      rel ∈ w.unsaved ∨ (∃ place, (place, rel, node) ∈ w.saved) ∨
        (w.Settled rel ∧ (w.since rel = false → w.Holds rel node))) ∧
    (w.stage = .done → ∀ rel, w₀.Restorable rel → Run (QuietStep rel) w₀ deeds w →
      (w.names rel).map w.nodes = Dict.lookup w₀.snapshot rel) := by
  have hkept : Kept w₀ w := by
    refine h.invariant (I := Kept w₀) hstart.kept_self ?_
    rintro v deed v' hv ⟨rfl, hregular⟩
    exact hv.exec hregular
  refine ⟨hkept.accounted.there, fun answer i hi => hkept.accounted.keeps_bytes answer hi,
    hkept.named, fun hdone rel node hnode => ?_, fun hdone rel hrel hquiet => ?_⟩
  · rw [← hkept.snapshot] at hnode
    rcases hkept.listed.reached (by rw [hdone]; rfl) rel node hnode with
      (hintact | hrestored | hsaved | hunsaved) | hqueue
    · have hsettled : w.Settled rel := .inl hintact
      exact .inr (.inr ⟨hsettled, fun hs => hkept.left.left rel hsettled hs node hnode⟩)
    · have hsettled : w.Settled rel := .inr hrestored
      exact .inr (.inr ⟨hsettled, fun hs => hkept.left.left rel hsettled hs node hnode⟩)
    · exact .inr (.inl hsaved)
    · exact .inl hunsaved
    · rw [World.queue, hkept.listed.ended hdone, hdone] at hqueue
      cases hqueue
  · have hexact : Kept w₀ w ∧ Exact rel w := by
      refine hquiet.invariant (I := fun v => Kept w₀ v ∧ Exact rel v)
        ⟨hstart.kept_self, hstart.exact_self hrel⟩ ?_
      rintro v deed v' ⟨hv, hexact⟩ ⟨⟨rfl, hregular⟩, hq⟩
      exact ⟨hv.exec hregular, hexact.exec hv.accounted hv.listed hq⟩
    have hview := hexact.2.restores (by rw [hdone]; nofun) (by rw [hdone]; rfl)
    rw [← hkept.snapshot]
    exact hview.2 (by rw [hkept.listed.ended hdone]; nofun)

/-! ### One name -/

/-- The run has written `a`, and nobody else has. -/
def sampleWorld : World where
  nodes _ := .file [2] 420
  next := 1
  names rel := if rel = "a" then some 0 else none
  snapshot := [("a", .file [1] 420)]
  ledger rel := if rel = "a" then some [2] else none
  syncHash := some [7]
  todo := ["a"]
  others := []
  since _ := false

/-- The run has left a link. -/
def linkWorld : World := { sampleWorld with nodes := fun _ => .link "b" }

def World.execAll (w : World) (deeds : List Deed) : World := deeds.foldl World.exec w

/-- The steps that answers lead to. -/
def acts (answers : List Answer) : List Deed := answers.map .act

theorem execAll_run {step : World → Deed → World → Prop} (w : World) {deeds : List Deed}
    (hstep : ∀ deed ∈ deeds, ∀ v, step v deed (v.exec deed)) :
    Run step w deeds (w.execAll deeds) := by
  induction deeds using List.reverseRecOn with
  | nil => exact .nil
  | append_singleton deeds deed ih =>
      rw [World.execAll, List.foldl_append]
      refine (ih fun deed' hdeed' => ?_).snoc (hstep deed (by simp) _)
      exact hstep deed' (List.mem_append_left _ hdeed')

theorem sampleWorld_started : Started sampleWorld where
  stage := rfl
  kept := rfl
  intact := rfl
  restored := rfl
  todo := by decide
  keys := by decide
  plain rel := by
    simp only [sampleWorld, Dict.lookup]
    split <;> simp
  named rel i hi := by
    simp only [sampleWorld] at hi ⊢
    split at hi <;> cases hi
    exact Nat.one_pos
  others i hi := by cases hi

/-- The whole rollback, with nothing refused. -/
def granted : List Deed := acts (List.replicate 12 .ok)

theorem rollback_conserves_sample :
    ((sampleWorld.execAll granted).names "a").map (sampleWorld.execAll granted).nodes =
      some (.file [1] 420) := by
  have hsteps : ∀ deed ∈ granted, ∀ w, QuietStep "a" w deed (w.exec deed) := by
    intro deed hdeed w
    obtain ⟨answer, hanswer, rfl⟩ := List.mem_map.mp hdeed
    exact ⟨⟨rfl, trivial⟩, (List.mem_replicate.mp hanswer).2⟩
  have hrun := execAll_run sampleWorld hsteps
  have hrestorable : sampleWorld.Restorable "a" := by
    refine ⟨fun _ => by decide, fun i r hi hr => ?_, fun i hi => .inl ⟨[2], 420, rfl⟩⟩
    by_cases hne : r = "a"
    · rw [hne]
      rfl
    · simp [sampleWorld, hne] at hr
  exact (rollback_conserves sampleWorld_started (hrun.mono fun _ _ _ hstep => hstep.1)).2.2.2.2
    (by decide +kernel) "a" hrestorable hrun

/-- Nobody else writes, and the disk is full when the file is put back. -/
def refusedDeeds : List Deed := acts (List.replicate 9 .ok ++ [.full, .full, .ok, .ok])

/-- Nobody else writes, and nothing is refused, with a link where the file was. -/
def linkDeeds : List Deed := acts (List.replicate 7 .ok)

/-- A descriptor of the captured file is written to after it was hashed again. -/
def lateDeeds : List Deed :=
  acts (List.replicate 6 .ok) ++ [.write 0 [9]] ++ acts (List.replicate 6 .ok)

/-- A file is written to between its creation and the copy. -/
def earlyDeeds : List Deed :=
  acts (List.replicate 10 .ok) ++ [.write 1 [9]] ++ acts (List.replicate 2 .ok)

/-- A file that was put back is replaced before the rollback ends. -/
def replacedDeeds : List Deed :=
  acts (List.replicate 11 .ok) ++ [.replace "a" (.file [9] 420)] ++ acts [.ok]

theorem late_write_unplaced : ¬(sampleWorld.execAll lateDeeds).Placed 0 := by
  have hnames : (sampleWorld.execAll lateDeeds).names =
      Function.update (Function.update sampleWorld.names "a" none) "a" (some 1) := by
    rfl
  have hkept : (sampleWorld.execAll lateDeeds).kept = [] := by decide +kernel
  rintro (⟨rel, hrel⟩ | ⟨place, hplace⟩ | haside)
  · rw [hnames] at hrel
    by_cases ha : rel = "a"
    · rw [ha, Function.update_self] at hrel
      cases hrel
    · rw [Function.update_of_ne ha, Function.update_of_ne ha] at hrel
      simp [sampleWorld, ha] at hrel
  · rw [hkept] at hplace
    cases hplace
  · revert haside
    decide +kernel

/-- A name is not restored although nobody else wrote on it, on a full disk or where the run left a
link, and a file that is not in the transaction is unlinked; what another writer wrote is dropped
with the captured file, or written over; and a pre-update file is nowhere after another writer
replaced it. -/
theorem rollback_loses :
    ((∀ deed ∈ refusedDeeds, ∃ answer, deed = .act answer) ∧
      (sampleWorld.execAll refusedDeeds).stage = .done ∧
      (sampleWorld.execAll refusedDeeds).names "a" = none ∧
      (sampleWorld.execAll refusedDeeds).syncHash = none) ∧
    ((linkWorld.execAll linkDeeds).stage = .done ∧
      ((linkWorld.execAll linkDeeds).names "a").map (linkWorld.execAll linkDeeds).nodes =
        some (.link "b")) ∧
    ((sampleWorld.execAll lateDeeds).stage = .done ∧ 0 ∈ (sampleWorld.execAll lateDeeds).others ∧
      (sampleWorld.execAll lateDeeds).nodes 0 = .file [9] 420 ∧
      ¬(sampleWorld.execAll lateDeeds).Placed 0) ∧
    ((sampleWorld.execAll earlyDeeds).stage = .done ∧ 1 ∈ (sampleWorld.execAll earlyDeeds).others ∧
      ∀ i < (sampleWorld.execAll earlyDeeds).next,
        ((sampleWorld.execAll earlyDeeds).nodes i).bytes ≠ some [9]) ∧
    ((sampleWorld.execAll replacedDeeds).stage = .done ∧
      (sampleWorld.execAll replacedDeeds).saved = [] ∧
      (sampleWorld.execAll replacedDeeds).unsaved = [] ∧
      ((sampleWorld.execAll replacedDeeds).names "a").map
        (sampleWorld.execAll replacedDeeds).nodes = some (.file [9] 420)) := by
  refine ⟨⟨fun deed hdeed => ?_, ?_, ?_, ?_⟩, ⟨?_, ?_⟩, ⟨?_, ?_, ?_, late_write_unplaced⟩,
    ⟨?_, ?_, ?_⟩, ⟨?_, ?_, ?_, ?_⟩⟩
  · obtain ⟨answer, -, rfl⟩ := List.mem_map.mp hdeed
    exact ⟨answer, rfl⟩
  all_goals decide +kernel

end TrwMcp.Rollback
