import TrwMcp.Rollback.Others

/-!
# The pre-update files

The clearing settles the names it leaves as they are, and the restoration the rest, each by a file
at the name, a saved copy, or an entry in what could not be saved. A settled name is not worked on
again.
-/

namespace TrwMcp.Rollback

open Lib

/-- The name a stage is at work on. -/
@[grind =] def Stage.current : Stage → Option String
  | .looked rel _ | .capture rel _ | .captured rel _ _ | .mismatched rel _ _ | .matched rel _ _
  | .verified rel _ _ | .refused rel _ | .aside rel _ _ | .asideVerified rel _ _
  | .asideChanged rel _ | .asideLinked rel _ | .putBack rel _ | .filling rel _ _
  | .unlinking rel _ _ _ | .save rel => some rel
  | _ => none

def Stage.restoring : Stage → Bool
  | .restore | .putBack _ _ | .filling _ _ _ | .unlinking _ _ _ _ | .save _ | .done => true
  | _ => false

@[grind =] def World.queue (w : World) : List String := w.stage.current.toList ++ w.todo

/-- What has become of a pre-update file. -/
def World.Reached (w : World) (rel : String) (node : Node) : Prop :=
  rel ∈ w.intact ∨ rel ∈ w.restored ∨ (∃ place, (place, rel, node) ∈ w.saved) ∨ rel ∈ w.unsaved

/-- The names still to come are not settled, and after the clearing every name of the snapshot is
settled or still to come. -/
structure Listed (w : World) : Prop where
  keys : (w.snapshot.map (·.1)).Nodup
  nodup : w.queue.Nodup
  ahead : ∀ rel ∈ w.queue, rel ∉ w.intact ∧ rel ∉ w.restored
  first : w.stage.restoring = false → w.stage ≠ .failed → w.restored = []
  reached : w.stage.restoring = true → ∀ rel node, Dict.lookup w.snapshot rel = some node →
    w.Reached rel node ∨ rel ∈ w.queue
  ended : w.stage = .done → w.todo = []

theorem Listed.clearing {w w' : World} (h : Listed w) (hfirst : w.restored = [])
    (hsnapshot : w'.snapshot = w.snapshot) (hqueue : w'.queue.Sublist w.queue)
    (hintact : ∀ rel ∈ w'.intact, rel ∈ w.intact ∨ rel ∉ w'.queue)
    (hrestored : w'.restored = w.restored) (hstage : w'.stage.restoring = false) : Listed w' where
  keys := hsnapshot ▸ h.keys
  nodup := h.nodup.sublist hqueue
  ahead rel hrel := by
    refine ⟨fun hmem => ?_, by simp [hrestored, hfirst]⟩
    rcases hintact rel hmem with hmem | hnot
    · exact (h.ahead rel (hqueue.subset hrel)).1 hmem
    · exact hnot hrel
  first _ _ := hrestored.trans hfirst
  reached hr := by
    rw [hstage] at hr
    cases hr
  ended hdone := by
    rw [hdone] at hstage
    cases hstage

theorem Listed.cleared {w w' : World} (h : Listed w) (hfirst : w.restored = [])
    (hsnapshot : w'.snapshot = w.snapshot) (htodo : w'.todo = w.todo)
    (hcurrent : w'.stage.current = none ∨ w'.stage.current = w.stage.current)
    (hintact : w'.intact = w.intact) (hrestored : w'.restored = w.restored)
    (hstage : w'.stage.restoring = false) : Listed w' := by
  refine h.clearing hfirst hsnapshot ?_ (fun rel hrel => .inl (hintact ▸ hrel)) hrestored hstage
  rw [World.queue, World.queue, htodo]
  rcases hcurrent with hnone | hsame
  · rw [hnone]
    exact List.sublist_append_right _ _
  · rw [hsame]

theorem Listed.leaveIntact {w : World} (h : Listed w) (hfirst : w.restored = []) {rel : String}
    (hrel : w.stage.current = some rel) {stage : Stage} (hcurrent : stage.current = none)
    (hstage : stage.restoring = false) : Listed (w.leaveIntact rel stage) := by
  have hnodup := h.nodup
  rw [World.queue, hrel] at hnodup
  refine h.clearing hfirst rfl ?_ (fun r hr => ?_) rfl hstage
  · change (stage.current.toList ++ w.todo).Sublist _
    rw [World.queue, hcurrent]
    exact List.sublist_append_right _ _
  · rcases List.mem_append.mp hr with hr | hr
    · exact .inl hr
    · right
      change r ∉ stage.current.toList ++ w.todo
      rw [List.mem_singleton.mp hr, hcurrent]
      exact (List.nodup_cons.mp hnodup).1

theorem Listed.restores {w : World} (h : Listed w) (hfirst : w.restored = []) :
    Listed { w with stage := .restore, todo := w.wanted } where
  keys := h.keys
  nodup := h.keys.filter _
  ahead rel hrel := by
    refine ⟨?_, by simp [hfirst]⟩
    simpa using (List.mem_filter.mp hrel).2
  first hr := by cases hr
  reached _ rel node hnode := by
    by_cases hintact : rel ∈ w.intact
    · exact .inl (.inl hintact)
    · refine .inr (List.mem_filter.mpr ⟨?_, by simpa using hintact⟩)
      exact Dict.lookup_isSome_iff.mp (by rw [hnode]; rfl)
  ended hdone := by cases hdone

theorem Listed.settles {w w' : World} (h : Listed w) (hstage : w.stage.restoring = true)
    (hstage' : w'.stage.restoring = true) (hsnapshot : w'.snapshot = w.snapshot)
    (hqueue : w'.queue.Sublist w.queue) (hintact : w'.intact = w.intact)
    (hrestored : ∀ rel ∈ w'.restored, rel ∈ w.restored ∨ rel ∉ w'.queue)
    (hkeeps : ∀ rel node, w.Reached rel node → w'.Reached rel node)
    (hreached : ∀ rel node, Dict.lookup w.snapshot rel = some node → rel ∈ w.queue →
      w'.Reached rel node ∨ rel ∈ w'.queue)
    (hended : w'.stage = .done → w'.todo = []) : Listed w' where
  keys := hsnapshot ▸ h.keys
  nodup := h.nodup.sublist hqueue
  ahead rel hrel := by
    have hahead := h.ahead rel (hqueue.subset hrel)
    refine ⟨hintact ▸ hahead.1, fun hmem => ?_⟩
    rcases hrestored rel hmem with hmem | hnot
    · exact hahead.2 hmem
    · exact hnot hrel
  first hr := by
    rw [hstage'] at hr
    cases hr
  reached _ rel node hnode := by
    rw [hsnapshot] at hnode
    rcases h.reached hstage rel node hnode with hr | hr
    · exact .inl (hkeeps rel node hr)
    · exact hreached rel node hnode hr
  ended := hended

theorem Listed.goesOn {w w' : World} (h : Listed w) (hstage : w.stage.restoring = true)
    (hstage' : w'.stage.restoring = true) (hsnapshot : w'.snapshot = w.snapshot)
    (hcurrent : w'.queue = w.queue) (hintact : w'.intact = w.intact)
    (hrestored : w'.restored = w.restored) (hsaved : w'.saved = w.saved)
    (hunsaved : w'.unsaved = w.unsaved) (hended : w'.stage = .done → w'.todo = []) :
    Listed w' := by
  refine h.settles hstage hstage' hsnapshot (hcurrent ▸ List.Sublist.refl _) hintact
    (fun rel hrel => .inl (hrestored ▸ hrel)) (fun rel node hr => ?_)
    (fun rel node _ hrel => .inr (hcurrent ▸ hrel)) hended
  simpa only [World.Reached, hintact, hrestored, hsaved, hunsaved] using hr

theorem Listed.finishes {w w' : World} (h : Listed w) (hstage : w.stage.restoring = true)
    (hstage' : w'.stage = .restore) (hsnapshot : w'.snapshot = w.snapshot) {rel : String}
    (hrel : w.stage.current = some rel) (htodo : w'.todo = w.todo) (hintact : w'.intact = w.intact)
    (hrestored : ∀ r ∈ w'.restored, r ∈ w.restored ∨ r = rel)
    (hkeeps : ∀ r node, w.Reached r node → w'.Reached r node)
    (hreached : ∀ node, Dict.lookup w.snapshot rel = some node → w'.Reached rel node) :
    Listed w' := by
  have hqueue : w.queue = rel :: w.todo := by rw [World.queue, hrel]; rfl
  have hqueue' : w'.queue = w.todo := by rw [World.queue, hstage', htodo]; rfl
  have hnodup := h.nodup
  rw [hqueue] at hnodup
  refine h.settles hstage (by rw [hstage']; rfl) hsnapshot ?_ hintact (fun r hr => ?_) hkeeps
    (fun r node hnode hr => ?_) (fun hdone => by rw [hstage'] at hdone; cases hdone)
  · rw [hqueue, hqueue']
    exact List.sublist_cons_self _ _
  · refine (hrestored r hr).imp_right ?_
    rintro rfl
    rw [hqueue']
    exact (List.nodup_cons.mp hnodup).1
  · rw [hqueue] at hr
    rw [hqueue']
    rcases List.mem_cons.mp hr with rfl | hr
    · exact .inl (hreached node hnode)
    · exact .inr hr

theorem Listed.refuse {w w' : World} (h : Listed w) (hfirst : w.restored = [])
    (hsnapshot : w'.snapshot = w.snapshot) (htodo : w'.todo = w.todo)
    (hintact : w'.intact = w.intact) (hrestored : w'.restored = w.restored) {rel : String}
    (hrel : w.stage.current = some rel) (current : Bytes) : Listed (w'.refuse rel current) := by
  unfold World.refuse
  split
  · exact h.cleared hfirst hsnapshot htodo (.inr hrel.symm) hintact hrestored rfl
  · exact h.cleared hfirst hsnapshot htodo (.inl rfl) hintact hrestored rfl

theorem Listed.takesUp {w : World} (h : Listed w) (hs : w.stage = .clear) (hfirst : w.restored = [])
    {rel : String} {todo : List String} (htodo : w.todo = rel :: todo) (mode : Nat) :
    Listed { w with todo, stage := .looked rel mode } := by
  refine h.clearing hfirst rfl ?_ (fun r hr => .inl hr) rfl rfl
  have hqueue : w.queue = rel :: todo := by rw [World.queue, hs, htodo]; rfl
  rw [hqueue]
  exact List.Sublist.refl _

theorem Listed.look {w : World} (h : Listed w) (hs : w.stage = .clear) (hfirst : w.restored = [])
    {rel : String} {todo : List String} (htodo : w.todo = rel :: todo) (answer : Answer) :
    Listed ({ w with todo }.look rel answer) := by
  have hlooked := h.takesUp hs hfirst htodo
  unfold World.look
  repeat' split
  · exact (hlooked 0).cleared hfirst rfl rfl (.inl rfl) rfl rfl rfl
  · exact (hlooked 0).cleared hfirst rfl rfl (.inl rfl) rfl rfl rfl
  · exact hlooked _
  · exact (hlooked 0).leaveIntact hfirst rfl rfl rfl
  · exact (hlooked 0).cleared hfirst rfl rfl (.inl rfl) rfl rfl rfl
  · exact (hlooked 0).cleared hfirst rfl rfl (.inl rfl) rfl rfl rfl

theorem Listed.retryOrSave {w w' : World} (h : Listed w) (hstage : w.stage.restoring = true)
    (hsnapshot : w'.snapshot = w.snapshot) (htodo : w'.todo = w.todo)
    (hintact : w'.intact = w.intact) (hrestored : w'.restored = w.restored)
    (hsaved : w'.saved = w.saved) (hunsaved : w'.unsaved = w.unsaved) {rel : String}
    (hrel : w.stage.current = some rel) (again : Bool) (answer : Answer) :
    Listed (w'.retryOrSave rel again answer) := by
  have hqueue : w.queue = rel :: w'.todo := by rw [World.queue, hrel, htodo]; rfl
  unfold World.retryOrSave
  split
  · exact h.goesOn hstage rfl hsnapshot hqueue.symm hintact hrestored hsaved hunsaved nofun
  · exact h.goesOn hstage rfl hsnapshot hqueue.symm hintact hrestored hsaved hunsaved nofun

theorem Listed.putBackDone {w w' : World} (h : Listed w) (hstage : w.stage.restoring = true)
    (hsnapshot : w'.snapshot = w.snapshot) (htodo : w'.todo = w.todo)
    (hintact : w'.intact = w.intact) (hrestored : w'.restored = w.restored)
    (hsaved : w'.saved = w.saved) (hunsaved : w'.unsaved = w.unsaved) {rel : String}
    (hrel : w.stage.current = some rel) : Listed (w'.putBackDone rel) := by
  refine h.finishes hstage rfl hsnapshot hrel htodo hintact (fun r hr => ?_) (fun r node hr => ?_)
    (fun node _ => .inr (.inl (List.mem_append_right _ (by simp))))
  · rcases List.mem_append.mp hr with hr | hr
    · exact .inl (hrestored ▸ hr)
    · exact .inr (List.mem_singleton.mp hr)
  · rcases hr with hr | hr | hr | hr
    · exact .inl (hintact.symm ▸ hr)
    · exact .inr (.inl (List.mem_append_left _ (hrestored.symm ▸ hr)))
    · exact .inr (.inr (.inl (hsaved.symm ▸ hr)))
    · exact .inr (.inr (.inr (hunsaved.symm ▸ hr)))

theorem Listed.copyBack {w : World} (h : Listed w) {rel : String} {again : Bool}
    (hs : w.stage = .putBack rel again) (answer : Answer) :
    Listed (w.copyBack rel again answer) := by
  have hstage : w.stage.restoring = true := by rw [hs]; rfl
  have hrel : w.stage.current = some rel := by rw [hs]; rfl
  have hqueue : w.queue = rel :: w.todo := by rw [World.queue, hrel]; rfl
  unfold World.copyBack
  split
  · next hnone =>
      refine h.finishes hstage rfl rfl hrel rfl rfl (fun r hr => .inl hr) (fun _ _ hr => hr) ?_
      intro node hnode
      rw [hnone] at hnode
      cases hnode
  · split
    · exact h.retryOrSave hstage rfl rfl rfl rfl rfl rfl hrel again answer
    · split
      · split
        · refine h.putBackDone hstage ?_ ?_ ?_ ?_ ?_ ?_ hrel <;> rfl
        · exact h.goesOn hstage rfl rfl hqueue.symm rfl rfl rfl rfl (by rintro ⟨⟩)
      · simp only
        split
        · exact h.goesOn hstage rfl rfl hqueue.symm rfl rfl rfl rfl (by simp)
        · refine h.putBackDone hstage ?_ ?_ ?_ ?_ ?_ ?_ hrel <;> rfl

theorem Listed.saveInTrash {w : World} (h : Listed w) {rel : String} (hs : w.stage = .save rel)
    (answer : Answer) : Listed (w.saveInTrash rel answer) := by
  have hstage : w.stage.restoring = true := by rw [hs]; rfl
  have hrel : w.stage.current = some rel := by rw [hs]; rfl
  have hsaved : ∀ place node, Dict.lookup w.snapshot rel = some node →
      ∀ notes, Listed
        { w with saved := w.saved ++ [(place, rel, node)], stage := .restore, notes } := by
    intro place node hnode notes
    refine h.finishes hstage rfl rfl hrel rfl rfl (fun r hr => .inl hr) (fun r node' hr => ?_)
      (fun node' hnode' => ?_)
    · rcases hr with hr | hr | ⟨place', hr⟩ | hr
      · exact .inl hr
      · exact .inr (.inl hr)
      · exact .inr (.inr (.inl ⟨place', List.mem_append_left _ hr⟩))
      · exact .inr (.inr (.inr hr))
    · obtain rfl := Option.some.inj (hnode.symm.trans hnode')
      exact .inr (.inr (.inl ⟨place, List.mem_append_right _ (by simp)⟩))
  unfold World.saveInTrash
  split
  · next node hnode => exact hsaved .trash node hnode _
  · next node hnode => exact hsaved .beside node hnode _
  · refine h.finishes hstage rfl rfl hrel rfl rfl (fun r hr => .inl hr) (fun r node hr => ?_)
      (fun node _ => .inr (.inr (.inr (List.mem_append_right _ (by simp)))))
    rcases hr with hr | hr | hr | hr
    · exact .inl hr
    · exact .inr (.inl hr)
    · exact .inr (.inr (.inl hr))
    · exact .inr (.inr (.inr (List.mem_append_left _ hr)))

theorem Listed.clears {w : World} (h : Listed w) (answer : Answer) {rel : String}
    (hrel : w.stage.current = some rel) (hstage : w.stage.restoring = false) :
    Listed (w.act answer) := by
  have hfirst : w.restored = [] := by
    refine h.first hstage fun hfailed => ?_
    rw [hfailed] at hrel
    cases hrel
  have hcleared : ∀ {stage : Stage} {names : String → Option Nat} {kept : List (Place × Nat)}
      {notes : List Note}, stage.current = none ∨ stage.current = w.stage.current →
      stage.restoring = false → Listed { w with stage, names, kept, notes } :=
    fun hcurrent hstage => h.cleared hfirst rfl rfl hcurrent rfl rfl hstage
  cases hs : w.stage with
  | looked r mode =>
      obtain rfl : r = rel := by simpa [hs, Stage.current] using hrel
      simp only [World.act, hs, World.compare]
      split
      · exact hcleared (.inl rfl) rfl
      · split
        · exact hcleared (.inl rfl) rfl
        · split
          · split
            · refine h.leaveIntact hfirst hrel ?_ ?_ <;> split <;> rfl
            · exact hcleared (.inr hrel.symm) rfl
          · exact hcleared (.inr hrel.symm) rfl
  | capture r current =>
      obtain rfl : r = rel := by simpa [hs, Stage.current] using hrel
      simp only [World.act, hs, World.capture]
      repeat' split
      · exact hcleared (.inl rfl) rfl
      · exact hcleared (.inr hrel.symm) rfl
      · exact h.refuse hfirst rfl rfl rfl rfl hrel current
  | captured r current i =>
      obtain rfl : r = rel := by simpa [hs, Stage.current] using hrel
      simp only [World.act, hs, World.verify]
      split
      · exact hcleared (.inr hrel.symm) rfl
      · exact hcleared (.inr hrel.symm) rfl
  | mismatched r current i =>
      obtain rfl : r = rel := by simpa [hs, Stage.current] using hrel
      simp only [World.act, hs, World.linkBack]
      split
      · refine h.refuse hfirst ?_ ?_ ?_ ?_ hrel current <;> rfl
      · exact hcleared (.inl rfl) rfl
  | matched r current i =>
      obtain rfl : r = rel := by simpa [hs, Stage.current] using hrel
      simp only [World.act, hs, World.recheck]
      split
      · exact hcleared (.inr hrel.symm) rfl
      · exact hcleared (.inl rfl) rfl
  | verified r current i =>
      simp only [World.act, hs]
      exact hcleared (.inl rfl) rfl
  | refused r current =>
      obtain rfl : r = rel := by simpa [hs, Stage.current] using hrel
      simp only [World.act, hs, World.moveAside]
      repeat' split
      · exact hcleared (.inl rfl) rfl
      · exact hcleared (.inr hrel.symm) rfl
      · exact hcleared (.inl rfl) rfl
      · exact hcleared (.inl rfl) rfl
      · exact hcleared (.inl rfl) rfl
  | aside r current i =>
      obtain rfl : r = rel := by simpa [hs, Stage.current] using hrel
      simp only [World.act, hs, World.recheckAside]
      split
      · exact hcleared (.inr hrel.symm) rfl
      · exact hcleared (.inr hrel.symm) rfl
  | asideVerified r current i =>
      simp only [World.act, hs]
      exact hcleared (.inl rfl) rfl
  | asideChanged r i =>
      obtain rfl : r = rel := by simpa [hs, Stage.current] using hrel
      simp only [World.act, hs, World.linkAside]
      split
      · exact hcleared (.inr hrel.symm) rfl
      · exact hcleared (.inl rfl) rfl
  | asideLinked r i =>
      simp only [World.act, hs]
      exact hcleared (.inl rfl) rfl
  | putBack r again =>
      rw [hs] at hstage
      cases hstage
  | filling r i again =>
      rw [hs] at hstage
      cases hstage
  | unlinking r i again why =>
      rw [hs] at hstage
      cases hstage
  | save r =>
      rw [hs] at hstage
      cases hstage
  | _ =>
      rw [hs] at hrel
      cases hrel

theorem Listed.act {w : World} (h : Listed w) (answer : Answer) : Listed (w.act answer) := by
  by_cases hworks : w.stage.restoring = false ∧ w.stage.current.isSome = true
  · obtain ⟨rel, hrel⟩ := Option.isSome_iff_exists.mp hworks.2
    exact h.clears answer hrel hworks.1
  have hfirst : w.stage.restoring = false → w.stage ≠ .failed → w.restored = [] := h.first
  cases hs : w.stage with
  | validate =>
      rw [hs] at hfirst
      simp only [World.act, hs]
      have hfirst := hfirst rfl nofun
      cases answer <;> exact h.cleared hfirst rfl rfl (.inl rfl) rfl rfl rfl
  | clear =>
      rw [hs] at hfirst
      have hfirst := hfirst rfl nofun
      simp only [World.act, hs]
      split
      · next rel todo htodo => exact hs ▸ h.look hs hfirst htodo answer
      · split
        · exact h.restores hfirst
        · exact h.cleared hfirst rfl rfl (.inl rfl) rfl rfl rfl
  | chmod rel mode =>
      rw [hs] at hfirst
      have hfirst := hfirst rfl nofun
      simp only [World.act, hs, World.chmod]
      repeat' split
      · exact h.cleared hfirst rfl rfl (.inl rfl) rfl rfl rfl
      · exact h.cleared hfirst rfl rfl (.inl rfl) rfl rfl rfl
      · exact h.cleared hfirst rfl rfl (.inl rfl) rfl rfl rfl
  | restore =>
      have hstage : w.stage.restoring = true := by rw [hs]; rfl
      simp only [World.act, hs]
      split
      · next rel todo htodo =>
          have hqueue : w.queue = rel :: todo := by rw [World.queue, hs, htodo]; rfl
          exact h.goesOn hstage rfl rfl hqueue.symm rfl rfl rfl rfl nofun
      · next htodo =>
          have hqueue : w.queue = w.todo := by rw [World.queue, hs]; rfl
          split
          · exact h.goesOn hstage rfl rfl hqueue.symm rfl rfl rfl rfl fun _ => htodo
          · refine ⟨h.keys, ?_, ?_, fun _ hne => absurd rfl hne, nofun, nofun⟩
            · exact hqueue ▸ h.nodup
            · intro rel hrel
              exact h.ahead rel (hqueue.symm ▸ hrel)
  | putBack rel again => simpa only [World.act, hs] using h.copyBack hs answer
  | filling rel i again =>
      have hstage : w.stage.restoring = true := by rw [hs]; rfl
      have hrel : w.stage.current = some rel := by rw [hs]; rfl
      have hqueue : w.queue = rel :: w.todo := by rw [World.queue, hrel]; rfl
      simp only [World.act, hs, World.fill]
      split
      · refine h.putBackDone hstage ?_ ?_ ?_ ?_ ?_ ?_ hrel <;> rfl
      · split
        · exact h.goesOn hstage rfl rfl hqueue.symm rfl rfl rfl rfl nofun
        · exact h.retryOrSave hstage rfl rfl rfl rfl rfl rfl hrel again answer
  | unlinking rel i again why =>
      have hstage : w.stage.restoring = true := by rw [hs]; rfl
      have hrel : w.stage.current = some rel := by rw [hs]; rfl
      simp only [World.act, hs]
      refine h.retryOrSave hstage ?_ ?_ ?_ ?_ ?_ ?_ hrel again why <;> rfl
  | save rel => simpa only [World.act, hs] using h.saveInTrash hs answer
  | done => simpa only [World.act, hs] using h
  | failed => simpa only [World.act, hs] using h
  | _ =>
      rw [hs] at hworks
      exact absurd ⟨rfl, rfl⟩ hworks

theorem Listed.exec {w : World} (h : Listed w) (deed : Deed) : Listed (w.exec deed) := by
  have hsame : ∀ {nodes next names others since},
      Listed { w with nodes, next, names, others, since } :=
    ⟨h.keys, h.nodup, h.ahead, h.first, h.reached, h.ended⟩
  cases deed with
  | act answer => exact h.act answer
  | replace rel node => exact hsame
  | remove rel => exact hsame
  | write i content =>
      simp only [World.exec]
      split
      · exact hsame
      · exact h

/-! ## What the names hold -/

def World.Holds (w : World) (rel : String) (node : Node) : Prop :=
  ∃ i, w.names rel = some i ∧ (w.nodes i).Same node

def World.Settled (w : World) (rel : String) : Prop := rel ∈ w.intact ∨ rel ∈ w.restored

/-- A settled name holds its pre-update file, unless another writer has written there since. -/
structure Left (w : World) : Prop where
  plain : ∀ rel, Dict.lookup w.snapshot rel ≠ some .special
  left : ∀ rel, w.Settled rel → w.since rel = false →
    ∀ node, Dict.lookup w.snapshot rel = some node → w.Holds rel node
  filling : ∀ rel i again, w.stage = .filling rel i again → w.since rel = false →
    w.names rel = some i

theorem Node.same_self {node : Node} (h : node ≠ .special) : node.Same node := by
  cases node with
  | file content mode => rfl
  | link target => rfl
  | special => exact absurd rfl h

theorem Left.still {w w' : World} (h : Left w) (hsnapshot : w'.snapshot = w.snapshot)
    (hsettled : ∀ rel, w'.Settled rel → w.Settled rel)
    (hholds : ∀ rel, w.Settled rel → w'.since rel = false →
      w.since rel = false ∧ ∀ node, w.Holds rel node → w'.Holds rel node)
    (hfilling : ∀ rel i again, w'.stage = .filling rel i again → w'.since rel = false →
      w'.names rel = some i) : Left w' where
  plain := hsnapshot ▸ h.plain
  left rel hrel hsince node hnode := by
    obtain ⟨hsince, hkeeps⟩ := hholds rel (hsettled rel hrel) hsince
    exact hkeeps node (h.left rel (hsettled rel hrel) hsince node (hsnapshot ▸ hnode))
  filling := hfilling

theorem Left.works {w w' : World} (h : Left w) (hlisted : Listed w) {rel : String}
    (hrel : w.stage.current = some rel) (hsnapshot : w'.snapshot = w.snapshot)
    (hsettled : ∀ r, w'.Settled r → w.Settled r ∨ (r = rel ∧ (w'.since rel = false →
      ∀ node, Dict.lookup w.snapshot rel = some node → w'.Holds rel node)))
    (hsince : ∀ r, r ≠ rel → w'.since r = w.since r)
    (hholds : ∀ r, r ≠ rel → ∀ node, w.Holds r node → w'.Holds r node)
    (hfilling : ∀ r i again, w'.stage = .filling r i again → w'.since r = false →
      w'.names r = some i) : Left w' where
  plain := hsnapshot ▸ h.plain
  left r hr hs node hnode := by
    rw [hsnapshot] at hnode
    rcases hsettled r hr with hr | ⟨rfl, hholds⟩
    · have hne : r ≠ rel := by
        rintro rfl
        obtain ⟨hintact, hrestored⟩ := hlisted.ahead r (by simp [World.queue, hrel])
        exact hr.elim hintact hrestored
      exact hholds r hne node (h.left r hr (hsince r hne ▸ hs) node hnode)
    · exact hholds hs node hnode
  filling := hfilling

theorem Left.moves {w w' : World} (h : Left w) (hlisted : Listed w) {rel : String}
    (hrel : w.stage.current = some rel) (hsnapshot : w'.snapshot = w.snapshot)
    (hintact : w'.intact = w.intact) (hrestored : w'.restored = w.restored)
    (hsince : w'.since = w.since) (hnodes : w'.nodes = w.nodes)
    (hnames : ∀ r, r ≠ rel → w'.names r = w.names r)
    (hstage : ∀ r i again, w'.stage ≠ .filling r i again) : Left w' := by
  refine h.works hlisted hrel hsnapshot (fun r hr => .inl ?_) (fun r _ => by rw [hsince])
    (fun r hne node hr => ?_) (fun r i again hs => absurd hs (hstage r i again))
  · simpa only [World.Settled, hintact, hrestored] using hr
  · simpa only [World.Holds, hnames r hne, hnodes] using hr

theorem Left.turns {w w' : World} (h : Left w) (hsnapshot : w'.snapshot = w.snapshot)
    (hintact : w'.intact = w.intact) (hrestored : w'.restored = w.restored)
    (hsince : w'.since = w.since) (hnodes : w'.nodes = w.nodes) (hnames : w'.names = w.names)
    (hstage : ∀ r i again, w'.stage ≠ .filling r i again) : Left w' := by
  refine h.still hsnapshot (fun r hr => ?_) (fun r _ hs => ⟨hsince ▸ hs, fun node hr => ?_⟩)
    (fun r i again hs => absurd hs (hstage r i again))
  · simpa only [World.Settled, hintact, hrestored] using hr
  · simpa only [World.Holds, hnames, hnodes] using hr

theorem Left.leaveIntact {w : World} (h : Left w) (hlisted : Listed w) {rel : String}
    (hrel : w.stage.current = some rel) {stage : Stage} (hstage : stage.current = none)
    (hholds : ∀ node, Dict.lookup w.snapshot rel = some node → w.Holds rel node) :
    Left (w.leaveIntact rel stage) := by
  refine h.works hlisted hrel rfl (fun r hr => ?_) (fun r hne => Function.update_of_ne hne _ _)
    (fun r _ node hr => hr) (fun r i again hs => ?_)
  · rcases hr with hr | hr
    · rcases List.mem_append.mp hr with hr | hr
      · exact .inl (.inl hr)
      · exact .inr ⟨List.mem_singleton.mp hr, fun _ => hholds⟩
    · exact .inl (.inr hr)
  · change stage = _ at hs
    rw [hs] at hstage
    cases hstage

theorem Left.putBackDone {w w' : World} (h : Left w) (hlisted : Listed w) {rel : String}
    (hrel : w.stage.current = some rel) (hsnapshot : w'.snapshot = w.snapshot)
    (hintact : w'.intact = w.intact) (hrestored : w'.restored = w.restored)
    (hsince : ∀ r, r ≠ rel → w'.since r = w.since r)
    (hothers : ∀ r, r ≠ rel → ∀ node, w.Holds r node → w'.Holds r node)
    (hholds : w'.since rel = false →
      ∀ node, Dict.lookup w.snapshot rel = some node → w'.Holds rel node) :
    Left (w'.putBackDone rel) := by
  refine h.works hlisted hrel hsnapshot (fun r hr => ?_) hsince hothers nofun
  rcases hr with hr | hr
  · exact .inl (.inl (hintact ▸ hr))
  · rcases List.mem_append.mp hr with hr | hr
    · exact .inl (.inr (hrestored ▸ hr))
    · exact .inr ⟨List.mem_singleton.mp hr, hholds⟩

theorem Left.refuse {w w' : World} (h : Left w) (hlisted : Listed w) {rel : String}
    (hrel : w.stage.current = some rel) (hsnapshot : w'.snapshot = w.snapshot)
    (hintact : w'.intact = w.intact) (hrestored : w'.restored = w.restored)
    (hsince : w'.since = w.since) (hnodes : w'.nodes = w.nodes)
    (hnames : ∀ r, r ≠ rel → w'.names r = w.names r) (current : Bytes) :
    Left (w'.refuse rel current) := by
  unfold World.refuse
  split
  · exact h.moves hlisted hrel hsnapshot hintact hrestored hsince hnodes hnames nofun
  · exact h.moves hlisted hrel hsnapshot hintact hrestored hsince hnodes hnames nofun

theorem Left.retryOrSave {w w' : World} (h : Left w) (hlisted : Listed w) {rel : String}
    (hrel : w.stage.current = some rel) (hsnapshot : w'.snapshot = w.snapshot)
    (hintact : w'.intact = w.intact) (hrestored : w'.restored = w.restored)
    (hsince : w'.since = w.since) (hnodes : w'.nodes = w.nodes)
    (hnames : ∀ r, r ≠ rel → w'.names r = w.names r) (again : Bool) (answer : Answer) :
    Left (w'.retryOrSave rel again answer) := by
  unfold World.retryOrSave
  split
  · exact h.moves hlisted hrel hsnapshot hintact hrestored hsince hnodes hnames nofun
  · exact h.moves hlisted hrel hsnapshot hintact hrestored hsince hnodes hnames nofun

theorem Left.look {w : World} (h : Left w) (hlisted : Listed w) (hs : w.stage = .clear)
    (hfirst : w.restored = []) {rel : String} {todo : List String} (htodo : w.todo = rel :: todo)
    (answer : Answer) : Left ({ w with todo }.look rel answer) := by
  have hl := hlisted.takesUp hs hfirst htodo 0
  have hlooked : Left { w with todo, stage := .looked rel 0 } :=
    h.turns rfl rfl rfl rfl rfl rfl nofun
  unfold World.look
  repeat' split
  · exact h.turns rfl rfl rfl rfl rfl rfl nofun
  · exact h.turns rfl rfl rfl rfl rfl rfl nofun
  · exact h.turns rfl rfl rfl rfl rfl rfl nofun
  · next i hi _ _ target hnode hsnapshot =>
      refine hlooked.leaveIntact hl rfl rfl fun node hnode' => ⟨i, hi, ?_⟩
      obtain rfl := Option.some.inj (hsnapshot.symm.trans hnode')
      change (w.nodes i).Same (.link target)
      rw [show w.nodes i = .link target from hnode]
      rfl
  · exact h.turns rfl rfl rfl rfl rfl rfl nofun
  · exact h.turns rfl rfl rfl rfl rfl rfl nofun

theorem bytesAt_some {w : World} {rel : String} {current : Bytes}
    (h : w.bytesAt rel = some current) :
    ∃ i mode, w.names rel = some i ∧ w.nodes i = .file current mode := by
  obtain ⟨i, hi, hbytes⟩ := Option.bind_eq_some_iff.mp h
  cases hnode : w.nodes i with
  | file content mode =>
      rw [hnode] at hbytes
      obtain rfl := Option.some.inj hbytes
      exact ⟨i, mode, hi, hnode⟩
  | link target =>
      rw [hnode] at hbytes
      cases hbytes
  | special =>
      rw [hnode] at hbytes
      cases hbytes

theorem Left.compare {w : World} (h : Left w) (hlisted : Listed w) {rel : String}
    (hrel : w.stage.current = some rel) (mode : Nat) (answer : Answer) :
    Left (w.compare rel mode answer) := by
  unfold World.compare
  split
  · exact h.turns rfl rfl rfl rfl rfl rfl nofun
  · next current hcurrent =>
      split
      · exact h.turns rfl rfl rfl rfl rfl rfl nofun
      · split
        · next content want hsnapshot =>
            split
            · next hsame =>
                refine h.leaveIntact hlisted hrel (by split <;> rfl) fun node hnode => ?_
                obtain rfl := Option.some.inj (hsnapshot.symm.trans hnode)
                obtain ⟨i, old, hi, hfile⟩ := bytesAt_some hcurrent
                exact ⟨i, hi, by rw [hfile]; exact hsame⟩
            · exact h.turns rfl rfl rfl rfl rfl rfl nofun
        · exact h.turns rfl rfl rfl rfl rfl rfl nofun

theorem Left.chmod {w : World} (h : Left w) (rel : String) (mode : Nat) (answer : Answer) :
    Left (w.chmod rel mode answer) := by
  unfold World.chmod
  split
  · exact h.turns rfl rfl rfl rfl rfl rfl nofun
  · next i hi =>
      split
      · next content old hnode =>
          refine h.still rfl (fun r hr => hr) (fun r _ hs => ⟨hs, fun node hr => ?_⟩) nofun
          obtain ⟨j, hj, hsame⟩ := hr
          refine ⟨j, hj, ?_⟩
          change (Function.update w.nodes i (.file content mode) j).Same node
          by_cases hji : j = i
          · rw [hji, Function.update_self]
            rw [hji, hnode] at hsame
            cases node <;> exact hsame
          · rwa [Function.update_of_ne hji]
      · exact h.turns rfl rfl rfl rfl rfl rfl nofun

theorem Left.copyBack {w : World} (h : Left w) (hlisted : Listed w) (haccounted : Accounted w)
    {rel : String} {again : Bool} (hs : w.stage = .putBack rel again) (answer : Answer) :
    Left (w.copyBack rel again answer) := by
  have hrel : w.stage.current = some rel := by rw [hs]; rfl
  unfold World.copyBack
  split
  · exact h.turns rfl rfl rfl rfl rfl rfl (by simp)
  · next node hnode =>
      split
      · exact h.retryOrSave hlisted hrel rfl rfl rfl rfl rfl (fun _ _ => rfl) again answer
      · split
        · next i hi =>
            split
            · next hsame =>
                refine h.putBackDone hlisted hrel ?_ ?_ ?_
                  (fun r hne => Function.update_of_ne hne _ _) (fun r _ node hr => hr)
                  (fun _ node' hnode' => ?_)
                · rfl
                · rfl
                · rfl
                · obtain rfl := Option.some.inj (hnode.symm.trans hnode')
                  exact ⟨i, hi, hsame⟩
            · exact h.turns rfl rfl rfl rfl rfl rfl (fun _ _ _ hs => by cases hs)
        · have hother : ∀ made r, r ≠ rel → ∀ node', w.Holds r node' →
              ∃ i, Function.update w.names rel (some w.next) r = some i ∧
                (Function.update w.nodes w.next made i).Same node' := by
            rintro made r hne node' ⟨i, hi, hsame⟩
            refine ⟨i, by rwa [Function.update_of_ne hne], ?_⟩
            rwa [Function.update_of_ne (haccounted.named r i hi).ne]
          simp only
          split
          · refine h.works hlisted hrel rfl (fun r hr => .inl hr)
              (fun r hne => Function.update_of_ne hne _ _) (hother _) (fun r i again' hs' _ => ?_)
            cases hs'
            exact Function.update_self ..
          · refine h.putBackDone hlisted hrel ?_ ?_ ?_
              (fun r hne => Function.update_of_ne hne _ _) (hother node)
              (fun _ node' hnode' => ?_)
            · rfl
            · rfl
            · rfl
            · obtain rfl := Option.some.inj (hnode.symm.trans hnode')
              refine ⟨w.next, Function.update_self .., ?_⟩
              change (Function.update w.nodes w.next node w.next).Same node
              rw [Function.update_self]
              exact Node.same_self fun hspecial => h.plain rel (hspecial ▸ hnode)

theorem Left.fill {w : World} (h : Left w) (hlisted : Listed w) (haccounted : Accounted w)
    {rel : String} {i : Nat} {again : Bool} (hs : w.stage = .filling rel i again)
    (answer : Answer) : Left (w.fill rel i again answer) := by
  have hrel : w.stage.current = some rel := by rw [hs]; rfl
  have hsound := haccounted.stage
  rw [hs] at hsound
  unfold World.fill
  split
  · refine h.putBackDone hlisted hrel ?_ ?_ ?_ (fun r _ => ?_) (fun r hne node hr => ?_)
      (fun hsince node hnode => ?_)
    · rfl
    · rfl
    · rfl
    · rfl
    · obtain ⟨j, hj, hsame⟩ := hr
      have hji : j ≠ i := fun heq => hne (hsound.2.2 r (heq ▸ hj))
      refine ⟨j, hj, ?_⟩
      change (Function.update w.nodes i _ j).Same node
      rwa [Function.update_of_ne hji]
    · refine ⟨i, h.filling rel i again hs hsince, ?_⟩
      change (Function.update w.nodes i ((Dict.lookup w.snapshot rel).getD .special) i).Same node
      rw [Function.update_self, hnode]
      exact Node.same_self fun hspecial => h.plain rel (hspecial ▸ hnode)
  · split
    · exact h.turns rfl rfl rfl rfl rfl rfl nofun
    · exact h.retryOrSave hlisted hrel rfl rfl rfl rfl rfl (fun _ _ => rfl) again answer

theorem Left.act {w : World} (h : Left w) (hlisted : Listed w) (haccounted : Accounted w)
    (answer : Answer) : Left (w.act answer) := by
  have hfirst : w.stage.restoring = false → w.stage ≠ .failed → w.restored = [] := hlisted.first
  have hother : ∀ {rel file} r, r ≠ rel → Function.update w.names rel file r = w.names r :=
    fun r hne => Function.update_of_ne hne _ _
  cases hs : w.stage with
  | validate =>
      simp only [World.act, hs]
      cases answer <;> exact h.turns rfl rfl rfl rfl rfl rfl nofun
  | clear =>
      rw [hs] at hfirst
      simp only [World.act, hs]
      split
      · next rel todo htodo => exact hs ▸ h.look hlisted hs (hfirst rfl nofun) htodo answer
      · split
        · exact h.turns rfl rfl rfl rfl rfl rfl nofun
        · exact h.turns rfl rfl rfl rfl rfl rfl nofun
  | looked rel mode =>
      simpa only [World.act, hs] using h.compare hlisted (by rw [hs]; rfl) mode answer
  | chmod rel mode => simpa only [World.act, hs] using h.chmod rel mode answer
  | capture rel current =>
      have hrel : w.stage.current = some rel := by rw [hs]; rfl
      simp only [World.act, hs, World.capture]
      repeat' split
      · exact h.turns rfl rfl rfl rfl rfl rfl nofun
      · exact h.moves hlisted hrel rfl rfl rfl rfl rfl hother nofun
      · exact h.refuse hlisted hrel rfl rfl rfl rfl rfl (fun _ _ => rfl) current
  | captured rel current i =>
      simp only [World.act, hs, World.verify]
      split
      · exact h.turns rfl rfl rfl rfl rfl rfl nofun
      · exact h.turns rfl rfl rfl rfl rfl rfl nofun
  | mismatched rel current i =>
      have hrel : w.stage.current = some rel := by rw [hs]; rfl
      simp only [World.act, hs, World.linkBack]
      split
      · refine h.refuse hlisted hrel ?_ ?_ ?_ ?_ ?_ hother current <;> rfl
      · exact h.turns rfl rfl rfl rfl rfl rfl nofun
  | matched rel current i =>
      simp only [World.act, hs, World.recheck]
      split
      · exact h.turns rfl rfl rfl rfl rfl rfl nofun
      · exact h.turns rfl rfl rfl rfl rfl rfl nofun
  | verified rel current i =>
      simp only [World.act, hs]
      exact h.turns rfl rfl rfl rfl rfl rfl nofun
  | refused rel current =>
      have hrel : w.stage.current = some rel := by rw [hs]; rfl
      simp only [World.act, hs, World.moveAside]
      repeat' split
      · exact h.turns rfl rfl rfl rfl rfl rfl nofun
      · exact h.moves hlisted hrel rfl rfl rfl rfl rfl hother nofun
      · exact h.moves hlisted hrel rfl rfl rfl rfl rfl hother nofun
      · exact h.turns rfl rfl rfl rfl rfl rfl nofun
      · exact h.turns rfl rfl rfl rfl rfl rfl nofun
  | aside rel current i =>
      simp only [World.act, hs, World.recheckAside]
      split
      · exact h.turns rfl rfl rfl rfl rfl rfl nofun
      · exact h.turns rfl rfl rfl rfl rfl rfl nofun
  | asideVerified rel current i =>
      simp only [World.act, hs]
      exact h.turns rfl rfl rfl rfl rfl rfl nofun
  | asideChanged rel i =>
      have hrel : w.stage.current = some rel := by rw [hs]; rfl
      simp only [World.act, hs, World.linkAside]
      split
      · exact h.moves hlisted hrel rfl rfl rfl rfl rfl hother nofun
      · exact h.turns rfl rfl rfl rfl rfl rfl nofun
  | asideLinked rel i =>
      simp only [World.act, hs]
      exact h.turns rfl rfl rfl rfl rfl rfl nofun
  | restore =>
      simp only [World.act, hs]
      repeat' split
      · exact h.turns rfl rfl rfl rfl rfl rfl nofun
      · exact h.turns rfl rfl rfl rfl rfl rfl nofun
      · exact h.turns rfl rfl rfl rfl rfl rfl nofun
  | putBack rel again =>
      simpa only [World.act, hs] using h.copyBack hlisted haccounted hs answer
  | filling rel i again => simpa only [World.act, hs] using h.fill hlisted haccounted hs answer
  | unlinking rel i again why =>
      have hrel : w.stage.current = some rel := by rw [hs]; rfl
      simp only [World.act, hs]
      refine h.retryOrSave hlisted hrel ?_ ?_ ?_ ?_ ?_ hother again why <;> rfl
  | save rel =>
      simp only [World.act, hs, World.saveInTrash]
      split <;> exact h.turns rfl rfl rfl rfl rfl rfl nofun
  | done => simpa only [World.act, hs] using h
  | failed => simpa only [World.act, hs] using h

theorem Left.renamed {w w' : World} (h : Left w) {rel : String} {file : Option Nat}
    (hsnapshot : w'.snapshot = w.snapshot) (hintact : w'.intact = w.intact)
    (hrestored : w'.restored = w.restored) (hstage : w'.stage = w.stage)
    (hsince : w'.since = Function.update w.since rel true)
    (hnames : w'.names = Function.update w.names rel file)
    (hnodes : ∀ r i, w.names r = some i → w'.nodes i = w.nodes i) : Left w' := by
  have hne : ∀ {r}, w'.since r = false → r ≠ rel := by
    rintro r hs rfl
    rw [hsince, Function.update_self] at hs
    cases hs
  have hsame : ∀ {r}, r ≠ rel → w'.since r = w.since r ∧ w'.names r = w.names r := by
    intro r hr
    rw [hsince, hnames, Function.update_of_ne hr, Function.update_of_ne hr]
    exact ⟨rfl, rfl⟩
  refine h.still hsnapshot (fun r hr => ?_) (fun r _ hs => ?_) (fun r i again hr hs => ?_)
  · simpa only [World.Settled, hintact, hrestored] using hr
  · obtain ⟨hsince, hname⟩ := hsame (hne hs)
    refine ⟨hsince ▸ hs, fun node ⟨i, hi, hnode⟩ => ⟨i, hname ▸ hi, ?_⟩⟩
    rwa [hnodes r i hi]
  · obtain ⟨hsince, hname⟩ := hsame (hne hs)
    rw [hname]
    exact h.filling r i again (hstage ▸ hr) (hsince ▸ hs)

theorem Left.exec {w : World} (h : Left w) (hlisted : Listed w) (haccounted : Accounted w)
    (deed : Deed) : Left (w.exec deed) := by
  cases deed with
  | act answer => exact h.act hlisted haccounted answer
  | replace rel node =>
      refine h.renamed rfl rfl rfl rfl rfl rfl fun r i hi => ?_
      exact Function.update_of_ne (haccounted.named r i hi).ne _ _
  | remove rel => exact h.renamed rfl rfl rfl rfl rfl rfl fun r i hi => rfl
  | write i content =>
      simp only [World.exec]
      split
      · next old mode hnode =>
          refine h.still rfl (fun r hr => hr) (fun r _ hs => ?_) (fun r j again hr hs => ?_)
          · obtain ⟨hs, hname⟩ := Bool.or_eq_false_iff.mp hs
            refine ⟨hs, fun node hheld => ?_⟩
            obtain ⟨j, hj, hsame⟩ := hheld
            refine ⟨j, hj, ?_⟩
            have hji : j ≠ i := by
              rintro rfl
              simp [hj] at hname
            change (Function.update w.nodes i (.file content mode) j).Same node
            rwa [Function.update_of_ne hji]
          · exact h.filling r j again hr (Bool.or_eq_false_iff.mp hs).1
      · exact h

end TrwMcp.Rollback
