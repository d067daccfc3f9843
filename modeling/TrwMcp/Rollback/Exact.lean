import TrwMcp.Rollback.Snapshot

/-!
# A name nobody else writes on

The rollback's steps on another name leave it as it is, but for the mode of a file that both names
share; its own steps take it from what the run left there to what the snapshot holds.
-/

namespace TrwMcp.Rollback

open Lib

/-- The name a stage is about, the one whose mode is put back included. -/
@[grind =] def Stage.about : Stage → Option String
  | .chmod rel _ => some rel
  | stage => stage.current

/-- What a name is to hold in the end. -/
def World.View (w : World) (rel : String) : Prop :=
  (w.names rel).map w.nodes = Dict.lookup w.snapshot rel

/-- A name the run left as a regular file, as the snapshot's own link, or absent. -/
def World.Plain (w : World) (rel : String) : Prop :=
  ∀ i, w.names rel = some i → (∃ content mode, w.nodes i = .file content mode) ∨
    ∃ target, w.nodes i = .link target ∧ Dict.lookup w.snapshot rel = some (.link target)

/-- Nobody else writes on the name, and the operating system refuses nothing. -/
def Quiet (rel : String) (w : World) : Deed → Prop
  | .act answer => answer = .ok
  | .replace r _ => r ≠ rel
  | .remove r => r ≠ rel
  | .write i _ => w.names rel ≠ some i ∧ w.stage.held ≠ some (rel, i)

/-- A name while others are cleared. -/
def World.Waits (w : World) (rel : String) : Prop :=
  (rel ∈ w.todo → w.Plain rel) ∧
    (rel ∉ w.todo → (rel ∈ w.intact → w.View rel) ∧ (rel ∉ w.intact → w.names rel = none))

/-- A name while others are restored. -/
def World.Restores (w : World) (rel : String) : Prop :=
  (rel ∈ w.todo → w.names rel = none ∧ (Dict.lookup w.snapshot rel).isSome = true) ∧
    (rel ∉ w.todo → w.View rel)

/-- A name at work, when nothing is refused. -/
def Stage.Works (w : World) (rel : String) : Stage → Prop
  | .looked _ mode => ∃ i content, w.names rel = some i ∧ w.nodes i = .file content mode
  | .chmod _ mode => rel ∈ w.intact ∧ ∃ i content old, w.names rel = some i ∧
      w.nodes i = .file content old ∧ Dict.lookup w.snapshot rel = some (.file content mode)
  | .capture _ current => ∃ i mode, w.names rel = some i ∧ w.nodes i = .file current mode
  | .captured _ current i | .matched _ current i =>
      w.names rel = none ∧ (w.nodes i).bytes = some current
  | .verified _ _ _ => w.names rel = none
  | .putBack _ _ => w.names rel = none ∧ (Dict.lookup w.snapshot rel).isSome = true
  | .filling _ i _ => w.names rel = some i ∧ (Dict.lookup w.snapshot rel).isSome = true
  | _ => False

/-- The two names are the same in the snapshot. -/
def World.Alike (w : World) (r rel : String) : Prop :=
  Dict.lookup w.snapshot r = Dict.lookup w.snapshot rel

structure Exact (rel : String) (w : World) : Prop where
  alone : ∀ i r, w.names rel = some i → w.names r = some i → w.Alike r rel
  apart : ∀ i r, w.stage.held = some (r, i) → r ≠ rel → w.names rel = some i → w.Alike r rel
  unfilled : ∀ i r again, w.stage = .filling r i again → r ≠ rel → w.names rel ≠ some i
  chmods : ∀ r mode, w.stage = .chmod r mode →
    ∃ content, Dict.lookup w.snapshot r = some (.file content mode)
  alive : w.stage ≠ .failed
  waits : w.stage.about ≠ some rel → w.stage.restoring = false → w.Waits rel
  restores : w.stage.about ≠ some rel → w.stage.restoring = true → w.Restores rel
  works : w.stage.about = some rel → w.stage.Works w rel

/-! ## A step on another name -/

/-- A file as it was, or with the mode the snapshot has for it. -/
def Same (w w' : World) (rel : String) (i : Nat) : Prop :=
  w'.nodes i = w.nodes i ∨ ∃ content mode mode' content', w.nodes i = .file content mode ∧
    w'.nodes i = .file content mode' ∧ Dict.lookup w.snapshot rel = some (.file content' mode')

/-- A step leaves every name but one as it is. -/
structure Touches (r : String) (w w' : World) : Prop where
  snapshot : w'.snapshot = w.snapshot
  todo : w'.todo = w.todo
  restoring : w'.stage.restoring = w.stage.restoring
  alive : w'.stage ≠ .failed
  about : w'.stage.about = none ∨ w'.stage.about = some r
  names : ∀ q, q ≠ r → w'.names q = w.names q
  intact : ∀ q, q ≠ r → (q ∈ w'.intact ↔ q ∈ w.intact)
  named : ∀ i, w'.names r = some i →
    w.names r = some i ∨ w.stage.held = some (r, i) ∨ i = w.next
  held : ∀ i q, w'.stage.held = some (q, i) →
    q = r ∧ (w.names r = some i ∨ w.stage.held = some (r, i) ∨ i = w.next)
  fills : ∀ i q again, w'.stage = .filling q i again → i = w.next
  chmods : ∀ q mode, w'.stage = .chmod q mode →
    ∃ content, Dict.lookup w.snapshot q = some (.file content mode)
  nodes : ∀ i, (∀ again, w.stage ≠ .filling r i again) → i ≠ w.next →
    w'.nodes i = w.nodes i ∨ (w.names r = some i ∧ ∃ content mode mode',
      w.nodes i = .file content mode ∧ w'.nodes i = .file content mode' ∧ w.stage = .chmod r mode')

theorem World.View.of {w w' : World} {rel : String} (h : w.View rel)
    (hsnapshot : w'.snapshot = w.snapshot) (hnames : w'.names rel = w.names rel)
    (hnodes : ∀ i, w.names rel = some i → Same w w' rel i) : w'.View rel := by
  rw [World.View, hsnapshot, hnames]
  rw [World.View] at h
  cases hi : w.names rel with
  | none => rwa [hi] at h
  | some i =>
      rw [hi, Option.map_some] at h
      rcases hnodes i hi with hsame | ⟨content, mode, mode', content', hnode, hnode', hlookup⟩
      · rw [Option.map_some, hsame, h]
      · rw [hnode, hlookup, Option.some.injEq, Node.file.injEq] at h
        rw [Option.map_some, hnode', hlookup, h.1]

theorem World.Waits.of {w w' : World} {rel : String} (h : w.Waits rel)
    (hsnapshot : w'.snapshot = w.snapshot) (htodo : rel ∈ w'.todo ↔ rel ∈ w.todo)
    (hintact : rel ∈ w'.intact ↔ rel ∈ w.intact) (hnames : w'.names rel = w.names rel)
    (hnodes : ∀ i, w.names rel = some i → Same w w' rel i) : w'.Waits rel := by
  refine ⟨fun hrel i hi => ?_, fun hrel => ?_⟩
  · rw [hnames] at hi
    rcases hnodes i hi with hsame | ⟨content, mode, mode', content', hnode, hnode', hlookup⟩
    · rw [hsame, hsnapshot]
      exact h.1 (htodo.mp hrel) i hi
    · exact .inl ⟨content, mode', hnode'⟩
  · obtain ⟨hin, hout⟩ := h.2 (mt htodo.mpr hrel)
    exact ⟨fun hi => (hin (hintact.mp hi)).of hsnapshot hnames hnodes,
      fun hi => hnames.trans (hout (mt hintact.mpr hi))⟩

theorem World.Restores.of {w w' : World} {rel : String} (h : w.Restores rel)
    (hsnapshot : w'.snapshot = w.snapshot) (htodo : rel ∈ w'.todo ↔ rel ∈ w.todo)
    (hnames : w'.names rel = w.names rel)
    (hnodes : ∀ i, w.names rel = some i → Same w w' rel i) : w'.Restores rel := by
  refine ⟨fun hrel => ?_, fun hrel => (h.2 (mt htodo.mpr hrel)).of hsnapshot hnames hnodes⟩
  rw [hnames, hsnapshot]
  exact h.1 (htodo.mp hrel)

theorem Exact.touches {rel r : String} {w w' : World} (h : Exact rel w)
    (haccounted : Accounted w) (habout : w.stage.about = some r) (hr : r ≠ rel)
    (htouches : Touches r w w') : Exact rel w' := by
  have hfresh : ∀ i, w.names rel = some i → i ≠ w.next :=
    fun i hi => (haccounted.named rel i hi).ne
  have hnames : w'.names rel = w.names rel := htouches.names rel (Ne.symm hr)
  have hnot : w.stage.about ≠ some rel := fun heq => hr (Option.some.inj (habout.symm.trans heq))
  have hnot' : w'.stage.about ≠ some rel := by
    rcases htouches.about with hnone | hsome
    · rw [hnone]
      nofun
    · rw [hsome]
      exact fun heq => hr (Option.some.inj heq)
  have halike : ∀ {q}, w.Alike q rel → w'.Alike q rel := by
    intro q hq
    rw [World.Alike, htouches.snapshot]
    exact hq
  -- what the other name has, or has in its hands, is not this name's, or the two are alike
  have hours : ∀ i, w.names rel = some i →
      w.names r = some i ∨ w.stage.held = some (r, i) ∨ i = w.next → w.Alike r rel := by
    rintro i hi (hother | hheld | rfl)
    · exact h.alone i r hi hother
    · exact h.apart i r hheld hr hi
    · exact absurd rfl (hfresh _ hi)
  have hnodes : ∀ i, w.names rel = some i → Same w w' rel i := by
    intro i hi
    have hfill : ∀ again, w.stage ≠ .filling r i again :=
      fun again hs => h.unfilled i r again hs hr hi
    refine (htouches.nodes i hfill (hfresh i hi)).imp_right ?_
    rintro ⟨hother, content, mode, mode', hnode, hnode', hs⟩
    obtain ⟨content', hlookup⟩ := h.chmods r mode' hs
    exact ⟨content, mode, mode', content', hnode, hnode',
      (h.alone i r hi hother).symm.trans hlookup⟩
  refine ⟨fun i q hi hq => ?_, fun i q hheld hq hi => ?_, fun i q again hs _ hi => ?_,
    fun q mode hs => ?_, htouches.alive, fun _ hclear => ?_, fun _ hrestore => ?_,
    fun hmine => absurd hmine hnot'⟩
  · rw [hnames] at hi
    by_cases hqr : q = r
    · exact hqr ▸ halike (hours i hi (htouches.named i (hqr ▸ hq)))
    · exact halike (h.alone i q hi (htouches.names q hqr ▸ hq))
  · rw [hnames] at hi
    obtain ⟨rfl, hwhere⟩ := htouches.held i q hheld
    exact halike (hours i hi hwhere)
  · rw [hnames] at hi
    exact hfresh i hi (htouches.fills i q again hs)
  · rw [htouches.snapshot]
    exact htouches.chmods q mode hs
  · rw [htouches.restoring] at hclear
    exact (h.waits hnot hclear).of htouches.snapshot (by rw [htouches.todo])
      (htouches.intact rel (Ne.symm hr)) hnames hnodes
  · rw [htouches.restoring] at hrestore
    exact (h.restores hnot hrestore).of htouches.snapshot (by rw [htouches.todo]) hnames hnodes

theorem Touches.stays {r : String} {w w' : World} (hsnapshot : w'.snapshot = w.snapshot)
    (htodo : w'.todo = w.todo) (hrestoring : w'.stage.restoring = w.stage.restoring)
    (halive : w'.stage ≠ .failed) (hfills : ∀ i q again, w'.stage ≠ .filling q i again)
    (hchmods : ∀ q mode, w'.stage ≠ .chmod q mode)
    (habout : w'.stage.about = none ∨ w'.stage.about = some r)
    (hnames : w'.names = w.names) (hnodes : w'.nodes = w.nodes) (hintact : w'.intact = w.intact)
    (hheld : ∀ i q, w'.stage.held = some (q, i) →
      q = r ∧ (w.names r = some i ∨ w.stage.held = some (r, i) ∨ i = w.next)) :
    Touches r w w' where
  snapshot := hsnapshot
  todo := htodo
  restoring := hrestoring
  alive := halive
  about := habout
  names q _ := by rw [hnames]
  intact q _ := by rw [hintact]
  named i hi := .inl (hnames ▸ hi)
  held := hheld
  fills i q again hs := absurd hs (hfills i q again)
  chmods q mode hs := absurd hs (hchmods q mode)
  nodes i _ _ := .inl (by rw [hnodes])

theorem Touches.renames {r : String} {w w' : World} {file : Option Nat}
    (hsnapshot : w'.snapshot = w.snapshot) (htodo : w'.todo = w.todo)
    (hrestoring : w'.stage.restoring = w.stage.restoring) (halive : w'.stage ≠ .failed)
    (hfills : ∀ i q again, w'.stage = .filling q i again → i = w.next)
    (hchmods : ∀ q mode, w'.stage ≠ .chmod q mode)
    (habout : w'.stage.about = none ∨ w'.stage.about = some r)
    (hnames : w'.names = Function.update w.names r file)
    (hfile : ∀ i, file = some i → w.stage.held = some (r, i) ∨ i = w.next)
    (hintact : w'.intact = w.intact)
    (hheld : ∀ i q, w'.stage.held = some (q, i) →
      q = r ∧ (w.names r = some i ∨ w.stage.held = some (r, i) ∨ i = w.next))
    (hnodes : ∀ i, i ≠ w.next → w'.nodes i = w.nodes i) : Touches r w w' where
  snapshot := hsnapshot
  todo := htodo
  restoring := hrestoring
  alive := halive
  about := habout
  names q hq := by rw [hnames, Function.update_of_ne hq]
  intact q _ := by rw [hintact]
  named i hi := by
    rw [hnames, Function.update_self] at hi
    exact .inr (hfile i hi)
  held := hheld
  fills := hfills
  chmods q mode hs := absurd hs (hchmods q mode)
  nodes i _ hi := .inl (hnodes i hi)

theorem Touches.leave {r : String} {w : World} (hrestoring : w.stage.restoring = false) :
    Touches r w (w.leave r) :=
  .stays rfl rfl hrestoring.symm nofun nofun nofun (.inl rfl) rfl rfl rfl nofun

theorem Touches.leaveIntact {r : String} {w : World} (hrestoring : w.stage.restoring = false)
    {stage : Stage} (hstage : stage.restoring = false) (halive : stage ≠ .failed)
    (habout : stage.about = none ∨ stage.about = some r) (hheld : stage.held = none)
    (hchmods : ∀ q mode, stage = .chmod q mode →
      ∃ content, Dict.lookup w.snapshot q = some (.file content mode)) :
    Touches r w (w.leaveIntact r stage) where
  snapshot := rfl
  todo := rfl
  restoring := hstage.trans hrestoring.symm
  alive := halive
  about := habout
  names q _ := rfl
  intact q hq := by simp [World.leaveIntact, hq]
  named i hi := .inl hi
  held i q hi := by
    change stage.held = _ at hi
    rw [hheld] at hi
    cases hi
  fills i q again hs := by
    change stage = _ at hs
    rw [hs] at hheld
    cases hheld
  chmods := hchmods
  nodes i _ _ := .inl rfl

theorem Touches.refuse {r : String} {w w' : World} (hrestoring : w.stage.restoring = false)
    (hsnapshot : w'.snapshot = w.snapshot) (htodo : w'.todo = w.todo)
    (hintact : w'.intact = w.intact) (hnodes : w'.nodes = w.nodes)
    (hnames : ∀ q, q ≠ r → w'.names q = w.names q)
    (hnamed : ∀ i, w'.names r = some i → w.names r = some i ∨ w.stage.held = some (r, i) ∨
      i = w.next) (current : Bytes) : Touches r w (w'.refuse r current) := by
  unfold World.refuse
  split
  · exact ⟨hsnapshot, htodo, hrestoring.symm, nofun, .inr rfl, hnames, fun q _ => by rw [hintact],
      hnamed, nofun, nofun, nofun, fun i _ _ => .inl (by rw [hnodes])⟩
  · exact ⟨hsnapshot, htodo, hrestoring.symm, nofun, .inl rfl, hnames,
      fun q _ => by simp only [World.leave, hintact], hnamed, nofun, nofun, nofun,
      fun i _ _ => .inl (by simp only [World.leave, hnodes])⟩

theorem Touches.retryOrSave {r : String} {w w' : World} (hrestoring : w.stage.restoring = true)
    (hsnapshot : w'.snapshot = w.snapshot) (htodo : w'.todo = w.todo)
    (hintact : w'.intact = w.intact) (hnodes : w'.nodes = w.nodes)
    (hnames : ∀ q, q ≠ r → w'.names q = w.names q)
    (hnamed : ∀ i, w'.names r = some i → w.names r = some i) (again : Bool) (answer : Answer) :
    Touches r w (w'.retryOrSave r again answer) := by
  unfold World.retryOrSave
  split
  · exact ⟨hsnapshot, htodo, hrestoring.symm, nofun, .inr rfl, hnames, fun q _ => by rw [hintact],
      fun i hi => .inl (hnamed i hi), nofun, nofun, nofun, fun i _ _ => .inl (by rw [hnodes])⟩
  · exact ⟨hsnapshot, htodo, hrestoring.symm, nofun, .inr rfl, hnames,
      fun q _ => by simp only [World.toSave, hintact], fun i hi => .inl (hnamed i hi), nofun,
      nofun, nofun, fun i _ _ => .inl (by simp only [World.toSave, hnodes])⟩

theorem Touches.clears {r : String} {w : World} (habout : w.stage.about = some r)
    (hrestoring : w.stage.restoring = false) (answer : Answer) : Touches r w (w.act answer) := by
  have hsame : ∀ {stage : Stage} {kept notes}, stage.restoring = false → stage ≠ .failed →
      (∀ i q again, stage ≠ .filling q i again) → (∀ q mode, stage ≠ .chmod q mode) →
      stage.about = none ∨ stage.about = some r →
      (∀ i q, stage.held = some (q, i) →
        q = r ∧ (w.names r = some i ∨ w.stage.held = some (r, i) ∨ i = w.next)) →
      Touches r w { w with stage, kept, notes } :=
    fun hstage halive hfills hchmods habout hheld =>
      .stays rfl rfl (hstage.trans hrestoring.symm) halive hfills hchmods habout rfl rfl rfl hheld
  -- the file in hand stays in hand
  have hholds : ∀ {stage : Stage} {kept notes} {i : Nat}, stage.restoring = false →
      stage ≠ .failed → (∀ i q again, stage ≠ .filling q i again) →
      (∀ q mode, stage ≠ .chmod q mode) → stage.about = none ∨ stage.about = some r →
      w.stage.held = some (r, i) → stage.held = some (r, i) →
      Touches r w { w with stage, kept, notes } := by
    intro stage kept notes i hstage halive hfills hchmods habout hheld hheld'
    refine hsame hstage halive hfills hchmods habout fun j q hj => ?_
    rw [hheld', Option.some.injEq, Prod.mk.injEq] at hj
    exact ⟨hj.1.symm, .inr (.inl (hj.2 ▸ hheld))⟩
  have htaken : ∀ {stage : Stage} {kept notes}, stage.restoring = false → stage ≠ .failed →
      (∀ i q again, stage ≠ .filling q i again) → (∀ q mode, stage ≠ .chmod q mode) →
      stage.about = none ∨ stage.about = some r →
      (∀ i q, stage.held = some (q, i) →
        q = r ∧ (w.names r = some i ∨ w.stage.held = some (r, i) ∨ i = w.next)) →
      Touches r w { w with names := Function.update w.names r none, stage, kept, notes } :=
    fun hstage halive hfills hchmods habout hheld =>
      .renames rfl rfl (hstage.trans hrestoring.symm) halive
        (fun i q again hs => absurd hs (hfills i q again)) hchmods habout rfl nofun rfl hheld
        fun _ _ => rfl
  cases hs : w.stage with
  | looked q mode =>
      obtain rfl : q = r := by simpa [hs, Stage.about, Stage.current] using habout
      simp only [World.act, hs, World.compare]
      split
      · exact .leave hrestoring
      · split
        · exact .leave hrestoring
        · split
          · next content want hlookup =>
            split
            · split
              · exact .leaveIntact hrestoring rfl nofun (.inl rfl) rfl nofun
              · refine .leaveIntact hrestoring rfl nofun (.inr rfl) rfl fun p mode' hs' => ?_
                cases hs'
                exact ⟨content, hlookup⟩
            · exact hsame rfl nofun nofun nofun (.inr rfl) nofun
          · exact hsame rfl nofun nofun nofun (.inr rfl) nofun
  | chmod q mode =>
      obtain rfl : q = r := by simpa [hs, Stage.about, Stage.current] using habout
      simp only [World.act, hs, World.chmod]
      split
      · exact hsame rfl nofun nofun nofun (.inl rfl) nofun
      · next i hi =>
          split
          · next content old hnode =>
            refine ⟨rfl, rfl, hrestoring.symm, nofun, .inl rfl, fun _ _ => rfl, fun _ _ => .rfl,
              fun _ hi => .inl hi, nofun, nofun, nofun, fun j _ _ => ?_⟩
            by_cases hji : j = i
            · subst hji
              exact .inr ⟨hi, content, old, mode, hnode, Function.update_self .., hs⟩
            · exact .inl (Function.update_of_ne hji _ _)
          · exact hsame rfl nofun nofun nofun (.inl rfl) nofun
  | capture q current =>
      obtain rfl : q = r := by simpa [hs, Stage.about, Stage.current] using habout
      simp only [World.act, hs, World.capture]
      split
      · exact hsame rfl nofun nofun nofun (.inl rfl) nofun
      · next i hi =>
          split
          · refine htaken rfl nofun nofun nofun (.inr rfl) fun j p hheld => ?_
            cases hheld
            exact ⟨rfl, .inl hi⟩
          · exact .refuse hrestoring rfl rfl rfl rfl (fun _ _ => rfl) (fun _ hi => .inl hi) current
  | captured q current i =>
      obtain rfl : q = r := by simpa [hs, Stage.about, Stage.current] using habout
      simp only [World.act, hs, World.verify]
      split
      · exact hholds rfl nofun nofun nofun (.inr rfl) (by rw [hs]; rfl) rfl
      · exact hholds rfl nofun nofun nofun (.inr rfl) (by rw [hs]; rfl) rfl
  | mismatched q current i =>
      obtain rfl : q = r := by simpa [hs, Stage.about, Stage.current] using habout
      simp only [World.act, hs, World.linkBack]
      split
      · refine .refuse hrestoring ?_ ?_ ?_ ?_ (fun p hp => Function.update_of_ne hp _ _)
          (fun j hj => ?_) current
        · rfl
        · rfl
        · rfl
        · rfl
        · change Function.update w.names q (some i) q = some j at hj
          rw [Function.update_self] at hj
          cases hj
          exact .inr (.inl (by rw [hs]; rfl))
      · exact hsame rfl nofun nofun nofun (.inl rfl) nofun
  | matched q current i =>
      obtain rfl : q = r := by simpa [hs, Stage.about, Stage.current] using habout
      simp only [World.act, hs, World.recheck]
      split
      · exact hholds rfl nofun nofun nofun (.inr rfl) (by rw [hs]; rfl) rfl
      · exact hsame rfl nofun nofun nofun (.inl rfl) nofun
  | verified q current i =>
      simp only [World.act, hs]
      exact hsame rfl nofun nofun nofun (.inl rfl) nofun
  | refused q current =>
      obtain rfl : q = r := by simpa [hs, Stage.about, Stage.current] using habout
      simp only [World.act, hs, World.moveAside]
      split
      · exact hsame rfl nofun nofun nofun (.inl rfl) nofun
      · next i hi =>
          cases answer with
          | ok =>
              refine htaken rfl nofun nofun nofun (.inr rfl) fun j p hheld => ?_
              cases hheld
              exact ⟨rfl, .inl hi⟩
          | full =>
              simp only
              split
              · exact htaken rfl nofun nofun nofun (.inl rfl) nofun
              · exact .leave hrestoring
          | refused => exact .leave hrestoring
  | aside q current i =>
      obtain rfl : q = r := by simpa [hs, Stage.about, Stage.current] using habout
      simp only [World.act, hs, World.recheckAside]
      split
      · exact hholds rfl nofun nofun nofun (.inr rfl) (by rw [hs]; rfl) rfl
      · exact hholds rfl nofun nofun nofun (.inr rfl) (by rw [hs]; rfl) rfl
  | asideVerified q current i =>
      simp only [World.act, hs]
      exact hsame rfl nofun nofun nofun (.inl rfl) nofun
  | asideChanged q i =>
      obtain rfl : q = r := by simpa [hs, Stage.about, Stage.current] using habout
      simp only [World.act, hs, World.linkAside]
      split
      · refine .renames rfl rfl hrestoring.symm nofun nofun nofun (.inr rfl) rfl
          (fun j hj => ?_) rfl (fun j p hheld => ?_) (fun _ _ => rfl)
        · cases hj
          exact .inl (by rw [hs]; rfl)
        · cases hheld
          exact ⟨rfl, .inr (.inl (by rw [hs]; rfl))⟩
      · exact hsame rfl nofun nofun nofun (.inl rfl) nofun
  | asideLinked q i =>
      simp only [World.act, hs]
      exact hsame rfl nofun nofun nofun (.inl rfl) nofun
  | putBack q again =>
      rw [hs] at hrestoring
      cases hrestoring
  | filling q i again =>
      rw [hs] at hrestoring
      cases hrestoring
  | unlinking q i again why =>
      rw [hs] at hrestoring
      cases hrestoring
  | save q =>
      rw [hs] at hrestoring
      cases hrestoring
  | _ =>
      rw [hs] at habout
      cases habout

theorem Touches.restores {r : String} {w : World} (habout : w.stage.about = some r)
    (hrestoring : w.stage.restoring = true) (answer : Answer) : Touches r w (w.act answer) := by
  have hmade : ∀ {w' : World} {node : Node}, w'.snapshot = w.snapshot → w'.todo = w.todo →
      w'.stage.restoring = true → w'.stage ≠ .failed → (∀ q mode, w'.stage ≠ .chmod q mode) →
      w'.stage.about = none ∨ w'.stage.about = some r →
      w'.names = Function.update w.names r (some w.next) → w'.intact = w.intact →
      (∀ i q, w'.stage.held = some (q, i) → q = r ∧ i = w.next) →
      w'.nodes = Function.update w.nodes w.next node → Touches r w w' := by
    intro w' node hsnapshot htodo hstage halive hchmods habout hnames hintact hheld hnodes
    refine .renames hsnapshot htodo (hstage.trans hrestoring.symm) halive
      (fun i q again hs => (hheld i q (by rw [hs]; rfl)).2) hchmods habout hnames
      (fun i hi => .inr (Option.some.inj hi).symm) hintact (fun i q hi => ?_) (fun i hi => ?_)
    · exact ⟨(hheld i q hi).1, .inr (.inr (hheld i q hi).2)⟩
    · rw [hnodes, Function.update_of_ne hi]
  cases hs : w.stage with
  | putBack q again =>
      obtain rfl : q = r := by simpa [hs, Stage.about, Stage.current] using habout
      simp only [World.act, hs, World.copyBack]
      split
      · exact .stays rfl rfl hrestoring.symm (by simp) (by simp) (by simp) (.inl rfl) rfl rfl rfl
          (by rintro _ _ ⟨⟩)
      · split
        · exact .retryOrSave hrestoring rfl rfl rfl rfl (fun _ _ => rfl) (fun _ hi => hi) again
            answer
        · split
          · split
            · exact .stays rfl rfl hrestoring.symm (by rintro ⟨⟩) (by rintro _ _ _ ⟨⟩)
                (by rintro _ _ ⟨⟩) (.inl rfl) rfl rfl rfl (by rintro _ _ ⟨⟩)
            · exact .stays rfl rfl hrestoring.symm (by rintro ⟨⟩) (by rintro _ _ _ ⟨⟩)
                (by rintro _ _ ⟨⟩) (.inr rfl) rfl rfl rfl (by rintro _ _ ⟨⟩)
          · split
            · refine hmade rfl rfl rfl (by simp) (by simp) (.inr rfl) rfl rfl (fun i p hheld => ?_)
                rfl
              cases hheld
              exact ⟨rfl, rfl⟩
            · exact hmade rfl rfl rfl (by rintro ⟨⟩) (by rintro _ _ ⟨⟩) (.inl rfl) rfl rfl
                (by rintro _ _ ⟨⟩) rfl
  | filling q i again =>
      obtain rfl : q = r := by simpa [hs, Stage.about, Stage.current] using habout
      have hheld : w.stage.held = some (q, i) := by rw [hs]; rfl
      simp only [World.act, hs, World.fill]
      split
      · refine ⟨rfl, rfl, hrestoring.symm, by rintro ⟨⟩, .inl rfl, fun _ _ => rfl, fun _ _ => .rfl,
          fun _ hi => .inl hi, by rintro _ _ ⟨⟩, by rintro _ _ _ ⟨⟩, by rintro _ _ ⟨⟩, fun j hj _
          => ?_⟩
        have hji : j ≠ i := by
          rintro rfl
          exact hj again hs
        exact .inl (Function.update_of_ne hji _ _)
      · split
        · refine .stays rfl rfl hrestoring.symm (by simp) (by simp) (by simp) (.inr rfl) rfl rfl rfl
            fun j p hj => ?_
          cases hj
          exact ⟨rfl, .inr (.inl hheld)⟩
        · exact .retryOrSave hrestoring rfl rfl rfl rfl (fun _ _ => rfl) (fun _ hi => hi) again
            answer
  | unlinking q i again why =>
      obtain rfl : q = r := by simpa [hs, Stage.about, Stage.current] using habout
      simp only [World.act, hs]
      refine .retryOrSave hrestoring ?_ ?_ ?_ ?_ (fun p hp => Function.update_of_ne hp _ _)
        (fun j hj => ?_) again why
      · rfl
      · rfl
      · rfl
      · rfl
      · change Function.update w.names q none q = some j at hj
        rw [Function.update_self] at hj
        cases hj
  | save q =>
      simp only [World.act, hs, World.saveInTrash]
      split <;> exact .stays rfl rfl hrestoring.symm (by simp) (by simp) (by simp) (.inl rfl) rfl
        rfl rfl (by rintro _ _ ⟨⟩)
  | restore =>
      rw [hs] at habout
      cases habout
  | done =>
      rw [hs] at habout
      cases habout
  | _ =>
      rw [hs] at hrestoring
      cases hrestoring

/-! ## A step on the name -/

theorem Exact.own {rel : String} {w w' : World} (h : Exact rel w) (haccounted : Accounted w)
    (hnames : w'.names = w.names ∨ w'.names = Function.update w.names rel none ∨
      w'.names = Function.update w.names rel (some w.next))
    (hsnapshot : w'.snapshot = w.snapshot)
    (hheld : ∀ i r, w'.stage.held = some (r, i) → r = rel)
    (hchmods : ∀ r mode, w'.stage = .chmod r mode →
      ∃ content, Dict.lookup w.snapshot r = some (.file content mode))
    (halive : w'.stage ≠ .failed)
    (hwaits : w'.stage.about ≠ some rel → w'.stage.restoring = false → w'.Waits rel)
    (hrestores : w'.stage.about ≠ some rel → w'.stage.restoring = true → w'.Restores rel)
    (hworks : w'.stage.about = some rel → w'.stage.Works w' rel) : Exact rel w' where
  alone i r hi hr := by
    by_cases hne : r = rel
    · rw [hne]
      rfl
    · rcases hnames with hsame | htaken | hmade
      · rw [World.Alike, hsnapshot]
        exact h.alone i r (hsame ▸ hi) (hsame ▸ hr)
      · rw [htaken, Function.update_self] at hi
        cases hi
      · rw [hmade, Function.update_self] at hi
        rw [hmade, Function.update_of_ne hne] at hr
        exact absurd (Option.some.inj hi).symm (haccounted.named r i hr).ne
  apart i r hi hr := absurd (hheld i r hi) hr
  unfilled i r again hs hr := absurd (hheld i r (by rw [hs]; rfl)) hr
  chmods r mode hs := hsnapshot ▸ hchmods r mode hs
  alive := halive
  waits := hwaits
  restores := hrestores
  works := hworks

theorem Listed.not_ahead {w : World} (h : Listed w) {rel : String}
    (hrel : w.stage.current = some rel) : rel ∉ w.todo ∧ rel ∉ w.intact := by
  have hnodup := h.nodup
  rw [World.queue, hrel] at hnodup
  exact ⟨(List.nodup_cons.mp hnodup).1, (h.ahead rel (by simp [World.queue, hrel])).1⟩

theorem Exact.cleared {rel : String} {w w' : World} (h : Exact rel w) (haccounted : Accounted w)
    (hlisted : Listed w) (hrel : w.stage.current = some rel) (hfree : w.names rel = none)
    (hstage : w'.stage = .clear) (hsnapshot : w'.snapshot = w.snapshot)
    (hnames : w'.names = w.names) (htodo : w'.todo = w.todo) (hintact : w'.intact = w.intact) :
    Exact rel w' := by
  obtain ⟨hnot, hout⟩ := hlisted.not_ahead hrel
  refine h.own haccounted (.inl hnames) hsnapshot (by rw [hstage]; nofun)
    (by rw [hstage]; nofun) (by rw [hstage]; nofun)
    (fun _ _ => ⟨fun hmem => ?_, fun _ => ⟨fun hmem => ?_, fun _ => hnames ▸ hfree⟩⟩)
    (by rw [hstage]; nofun) (by rw [hstage]; nofun)
  · exact absurd (htodo ▸ hmem) hnot
  · exact absurd (hintact ▸ hmem) hout

theorem Exact.works_act {rel : String} {w : World} (h : Exact rel w) (haccounted : Accounted w)
    (hlisted : Listed w) (habout : w.stage.about = some rel) :
    Exact rel (w.act .ok) := by
  have hworks := h.works habout
  cases hs : w.stage with
  | looked q mode =>
      obtain rfl : q = rel := by simpa [hs, Stage.about, Stage.current] using habout
      have hcurrent : w.stage.current = some q := by rw [hs]; rfl
      obtain ⟨hnot, hout⟩ := hlisted.not_ahead hcurrent
      rw [hs] at hworks
      obtain ⟨i, content, hi, hnode⟩ := hworks
      have hbytes : w.bytesAt q = some content := by simp [World.bytesAt, hi, hnode, Node.bytes]
      have hcapture : Exact q { w with stage := .capture q content } :=
        h.own haccounted (.inl rfl) rfl (by rintro _ _ ⟨⟩) (by simp) (by simp)
        (fun hne => absurd rfl hne) (by rintro _ ⟨⟩)
          fun _ => ⟨i, mode, hi, hnode⟩
      simp only [World.act, hs, World.compare, hbytes, ne_eq, not_true_eq_false, if_false]
      split
      · next want' want hsnapshot =>
          split
          · next hsame =>
              subst hsame
              split
              · next hmode =>
                  subst hmode
                  refine h.own haccounted (.inl rfl) rfl (by rintro _ _ ⟨⟩) (by rintro _ _ ⟨⟩)
                    (by rintro ⟨⟩)
                    (fun _ _ => ⟨fun hmem => absurd hmem hnot,
                      fun _ => ⟨fun _ => ?_, fun hno => ?_⟩⟩)
                    (by rintro _ ⟨⟩) (by rintro ⟨⟩)
                  · change (w.names q).map w.nodes = _
                    rw [hi, Option.map_some, hnode]
                    exact hsnapshot.symm
                  · exact absurd (List.mem_append_right _ (by simp)) hno
              · refine h.own haccounted (.inl rfl) rfl (by rintro _ _ ⟨⟩) (fun r mode' hs' => ?_)
                  (by rintro ⟨⟩)
                  (fun hne => absurd rfl hne) (by rintro _ ⟨⟩)
                  fun _ => ⟨List.mem_append_right _ (by simp), i, content, mode, hi, hnode,
                    hsnapshot⟩
                cases hs'
                exact ⟨content, hsnapshot⟩
          · exact hcapture
      · exact hcapture
  | chmod q mode =>
      obtain rfl : q = rel := by simpa [hs, Stage.about, Stage.current] using habout
      rw [hs] at hworks
      obtain ⟨hin, i, content, old, hi, hnode, hsnapshot⟩ := hworks
      have hnot : q ∉ w.todo := fun hmem =>
        (hlisted.ahead q (by simpa [World.queue, hs, Stage.current] using hmem)).1 hin
      simp only [World.act, hs, World.chmod, hi, hnode]
      refine h.own haccounted (.inl rfl) rfl (by rintro _ _ ⟨⟩) (by simp) (by simp)
        (fun _ _ => ⟨fun hmem => absurd hmem hnot, fun _ => ⟨fun _ => ?_, fun hno => ?_⟩⟩)
        (by rintro _ ⟨⟩) (by rintro ⟨⟩)
      · change (w.names q).map (Function.update w.nodes i (.file content mode)) = _
        rw [hi, Option.map_some, Function.update_self]
        exact hsnapshot.symm
      · exact absurd hin hno
  | capture q current =>
      obtain rfl : q = rel := by simpa [hs, Stage.about, Stage.current] using habout
      rw [hs] at hworks
      obtain ⟨i, mode, hi, hnode⟩ := hworks
      simp only [World.act, hs, World.capture, hi, if_true]
      refine h.own haccounted (.inr (.inl rfl)) rfl (fun j r hj => ?_) (by simp) (by simp)
        (fun hne => absurd rfl hne) (by rintro _ ⟨⟩) fun _ => ⟨Function.update_self .., ?_⟩
      · cases hj
        rfl
      · change (w.nodes i).bytes = some current
        rw [hnode]
        rfl
  | captured q current i =>
      obtain rfl : q = rel := by simpa [hs, Stage.about, Stage.current] using habout
      rw [hs] at hworks
      simp only [World.act, hs, World.verify, hworks.2, and_self, if_true]
      refine h.own haccounted (.inl rfl) rfl (fun j r hj => ?_) (by simp) (by simp)
        (fun hne => absurd rfl hne) (by rintro _ ⟨⟩) fun _ => hworks
      cases hj
      rfl
  | matched q current i =>
      obtain rfl : q = rel := by simpa [hs, Stage.about, Stage.current] using habout
      have hcurrent : w.stage.current = some q := by rw [hs]; rfl
      rw [hs] at hworks
      simp only [World.act, hs, World.recheck]
      split
      · refine h.own haccounted (.inl rfl) rfl (fun j r hj => ?_) (by simp) (by simp)
          (fun hne => absurd rfl hne) (by rintro _ ⟨⟩) fun _ => hworks.1
        cases hj
        rfl
      · exact h.cleared haccounted hlisted hcurrent hworks.1 rfl rfl rfl rfl rfl
  | verified q current i =>
      obtain rfl : q = rel := by simpa [hs, Stage.about, Stage.current] using habout
      have hcurrent : w.stage.current = some q := by rw [hs]; rfl
      rw [hs] at hworks
      simp only [World.act, hs]
      exact h.cleared haccounted hlisted hcurrent hworks rfl rfl rfl rfl rfl
  | putBack q again =>
      obtain rfl : q = rel := by simpa [hs, Stage.about, Stage.current] using habout
      have hcurrent : w.stage.current = some q := by rw [hs]; rfl
      obtain ⟨hnot, -⟩ := hlisted.not_ahead hcurrent
      rw [hs] at hworks
      obtain ⟨node, hnode⟩ := Option.isSome_iff_exists.mp hworks.2
      simp only [World.act, hs, World.copyBack, hnode, hworks.1, ne_eq, not_true_eq_false, if_false]
      split
      · next content mode =>
          refine h.own haccounted (.inr (.inr rfl)) rfl (fun j r hj => ?_) (by simp) (by simp)
            (fun hne => absurd rfl hne) (fun hne => absurd rfl hne)
            fun _ => ⟨Function.update_self .., by rw [hnode]; rfl⟩
          cases hj
          rfl
      · refine h.own haccounted (.inr (.inr rfl)) rfl (by rintro _ _ ⟨⟩) (by rintro _ _ ⟨⟩)
          (by rintro ⟨⟩) (by rintro _ ⟨⟩)
          (fun _ _ => ⟨fun hmem => absurd hmem hnot, fun _ => ?_⟩) (by rintro ⟨⟩)
        change (Function.update w.names q (some w.next) q).map
          (Function.update w.nodes w.next _) = _
        rw [Function.update_self, Option.map_some, Function.update_self]
        exact hnode.symm
  | filling q i again =>
      obtain rfl : q = rel := by simpa [hs, Stage.about, Stage.current] using habout
      have hcurrent : w.stage.current = some q := by rw [hs]; rfl
      obtain ⟨hnot, -⟩ := hlisted.not_ahead hcurrent
      rw [hs] at hworks
      obtain ⟨node, hnode⟩ := Option.isSome_iff_exists.mp hworks.2
      simp only [World.act, hs, World.fill, if_true]
      refine h.own haccounted (.inl rfl) rfl (by rintro _ _ ⟨⟩) (by rintro _ _ ⟨⟩) (by rintro ⟨⟩)
        (by rintro _ ⟨⟩)
        (fun _ _ => ⟨fun hmem => absurd hmem hnot, fun _ => ?_⟩) (by rintro ⟨⟩)
      change (w.names q).map
        (Function.update w.nodes i ((Dict.lookup w.snapshot q).getD .special)) =
          Dict.lookup w.snapshot q
      rw [hworks.1, Option.map_some, Function.update_self, hnode]
      rfl
  | _ =>
      rw [hs] at hworks
      exact hworks.elim

/-! ## Runs -/

theorem Exact.look {rel r : String} {w : World} (h : Exact rel w) (haccounted : Accounted w)
    (hlisted : Listed w) (hs : w.stage = .clear) {todo : List String} (htodo : w.todo = r :: todo) :
    Exact rel ({ w with todo }.look r .ok) := by
  have hwaits : w.Waits rel := h.waits (by rw [hs]; nofun) (by rw [hs]; rfl)
  have hfirst : w.restored = [] := hlisted.first (by rw [hs]; rfl) (by rw [hs]; nofun)
  have htaken := hlisted.takesUp hs hfirst htodo 0
  by_cases hr : r = rel
  · subst hr
    obtain ⟨hnot, hout⟩ := htaken.not_ahead rfl
    have hplain := hwaits.1 (by rw [htodo]; simp)
    unfold World.look
    cases hi : w.names r with
    | none =>
        refine h.own haccounted (.inl rfl) rfl nofun nofun nofun
          (fun _ _ => ⟨fun hmem => absurd hmem hnot,
            fun _ => ⟨fun hin => absurd hin hout, fun _ => hi⟩⟩)
          nofun nofun
    | some i =>
        rcases hplain i hi with ⟨content, mode, hnode⟩ | ⟨target, hnode, hsnapshot⟩
        · simp only [hnode, ne_eq, not_true_eq_false, if_false]
          exact h.own haccounted (.inl rfl) rfl nofun nofun nofun (fun hne => absurd rfl hne) nofun
            fun _ => ⟨i, content, hi, hnode⟩
        · simp only [hnode, hsnapshot, ne_eq, not_true_eq_false, if_false, if_true]
          refine h.own haccounted (.inl rfl) rfl nofun nofun nofun
            (fun _ _ => ⟨fun hmem => absurd hmem hnot, fun _ => ⟨fun _ => ?_, fun hno => ?_⟩⟩)
            nofun nofun
          · change (w.names r).map w.nodes = _
            rw [hi, Option.map_some, hnode]
            exact hsnapshot.symm
          · exact absurd (List.mem_append_right _ (by simp)) hno
  · have hmem : rel ∈ todo ↔ rel ∈ w.todo := by simp [htodo, Ne.symm hr]
    have hlooked : Exact rel { w with todo, stage := .looked r 0 } :=
      ⟨h.alone, nofun, nofun, nofun, nofun,
        fun _ _ => hwaits.of rfl hmem .rfl rfl fun _ _ => .inl rfl, nofun,
        fun heq => absurd (Option.some.inj heq) hr⟩
    have haccounted' : Accounted { w with todo, stage := .looked r 0 } :=
      haccounted.still ⟨rfl, rfl, rfl, rfl, rfl, rfl⟩ (.inl (by rw [hs]; rfl)) trivial
    refine hlooked.touches haccounted' rfl hr ?_
    unfold World.look
    repeat' split
    · exact .stays rfl rfl rfl nofun nofun nofun (.inl rfl) rfl rfl rfl nofun
    · exact .stays rfl rfl rfl nofun nofun nofun (.inl rfl) rfl rfl rfl nofun
    · exact .stays rfl rfl rfl nofun nofun nofun (.inr rfl) rfl rfl rfl nofun
    · exact .leaveIntact rfl rfl nofun (.inl rfl) rfl nofun
    · exact .stays rfl rfl rfl nofun nofun nofun (.inl rfl) rfl rfl rfl nofun
    · exact .stays rfl rfl rfl nofun nofun nofun (.inl rfl) rfl rfl rfl nofun

theorem Exact.takesSnapshot {rel : String} {w : World} (h : Exact rel w) (hs : w.stage = .clear)
    (htodo : w.todo = []) : Exact rel { w with stage := .restore, todo := w.wanted } := by
  have hwaits : w.Waits rel := h.waits (by rw [hs]; nofun) (by rw [hs]; rfl)
  obtain ⟨hin, hout⟩ := hwaits.2 (by rw [htodo]; nofun)
  have hkey : rel ∈ w.snapshot.map (·.1) ↔ (Dict.lookup w.snapshot rel).isSome = true :=
    Dict.lookup_isSome_iff.symm
  refine ⟨h.alone, nofun, nofun, nofun, nofun, nofun,
    fun _ _ => ⟨fun hmem => ?_, fun hmem => ?_⟩, nofun⟩
  · obtain ⟨hwanted, hnot⟩ := List.mem_filter.mp hmem
    exact ⟨hout (by simpa using hnot), hkey.mp hwanted⟩
  · by_cases hintact : rel ∈ w.intact
    · exact hin hintact
    · have hnone : Dict.lookup w.snapshot rel = none := by
        by_contra hsome
        refine hmem (List.mem_filter.mpr ⟨hkey.mpr ?_, by simpa using hintact⟩)
        exact Option.isSome_iff_ne_none.mpr hsome
      change (w.names rel).map w.nodes = Dict.lookup w.snapshot rel
      rw [hout hintact, hnone]
      rfl

theorem Exact.act {rel : String} {w : World} (h : Exact rel w) (haccounted : Accounted w)
    (hlisted : Listed w) : Exact rel (w.act .ok) := by
  cases habout : w.stage.about with
  | some r =>
      by_cases hr : r = rel
      · exact h.works_act haccounted hlisted (hr ▸ habout)
      · refine h.touches haccounted habout hr ?_
        cases hrestoring : w.stage.restoring with
        | false => exact .clears habout hrestoring .ok
        | true => exact .restores habout hrestoring .ok
  | none =>
      cases hs : w.stage with
      | validate =>
          have hwaits : w.Waits rel := h.waits (by rw [hs]; nofun) (by rw [hs]; rfl)
          simp only [World.act, hs, if_true]
          exact ⟨h.alone, nofun, nofun, nofun, nofun, fun _ _ => hwaits, nofun, nofun⟩
      | clear =>
          simp only [World.act, hs, if_true]
          split
          · next r todo htodo => exact hs ▸ h.look haccounted hlisted hs htodo
          · next htodo => exact h.takesSnapshot hs htodo
      | restore =>
          have hrestores : w.Restores rel := h.restores (by rw [hs]; nofun) (by rw [hs]; rfl)
          simp only [World.act, hs, if_true]
          split
          · next r todo htodo =>
              refine ⟨h.alone, nofun, nofun, nofun, nofun, nofun, fun hne _ => ?_, fun heq => ?_⟩
              · have hr : rel ≠ r := fun heq => hne (heq ▸ rfl)
                exact hrestores.of rfl (by simp [htodo, hr]) rfl fun _ _ => .inl rfl
              · obtain rfl := Option.some.inj heq
                exact hrestores.1 (by simp [htodo])
          · exact ⟨h.alone, nofun, nofun, nofun, nofun, nofun, fun _ _ => hrestores, nofun⟩
      | done => simpa only [World.act, hs] using h
      | failed => exact absurd hs h.alive
      | _ =>
          rw [hs] at habout
          cases habout

theorem Exact.elsewhere {rel : String} {w w' : World} (h : Exact rel w)
    (hsnapshot : w'.snapshot = w.snapshot) (htodo : w'.todo = w.todo)
    (hintact : w'.intact = w.intact) (hstage : w'.stage = w.stage)
    (hnames : w'.names rel = w.names rel)
    (halone : ∀ i r, w.names rel = some i → w'.names r = some i → w.names r = some i ∨ r = rel)
    (hnodes : ∀ i, w.names rel = some i ∨ w.stage.held = some (rel, i) → w'.nodes i = w.nodes i) :
    Exact rel w' := by
  have halike : ∀ {q}, w.Alike q rel → w'.Alike q rel := by
    intro q hq
    rw [World.Alike, hsnapshot]
    exact hq
  refine ⟨fun i r hi hr => ?_, fun i r hheld hr hi => ?_, fun i r again hs hr => ?_,
    fun r mode hs => ?_, hstage ▸ h.alive, fun hne hclear => ?_, fun hne hrestore => ?_,
    fun habout => ?_⟩
  · rw [hnames] at hi
    rcases halone i r hi hr with hr | rfl
    · exact halike (h.alone i r hi hr)
    · rfl
  · rw [hnames] at hi
    exact halike (h.apart i r (hstage ▸ hheld) hr hi)
  · rw [hnames]
    exact h.unfilled i r again (hstage ▸ hs) hr
  · rw [hsnapshot]
    exact h.chmods r mode (hstage ▸ hs)
  · exact (h.waits (hstage ▸ hne) (hstage ▸ hclear)).of hsnapshot (by rw [htodo]) (by rw [hintact])
      hnames fun i hi => .inl (hnodes i (.inl hi))
  · exact (h.restores (hstage ▸ hne) (hstage ▸ hrestore)).of hsnapshot (by rw [htodo]) hnames
      fun i hi => .inl (hnodes i (.inl hi))
  · rw [hstage] at habout ⊢
    have hworks := h.works habout
    cases hs : w.stage with
    | looked q mode =>
        rw [hs] at hworks
        obtain ⟨i, content, hi, hnode⟩ := hworks
        exact ⟨i, content, hnames ▸ hi, (hnodes i (.inl hi)).trans hnode⟩
    | chmod q mode =>
        rw [hs] at hworks
        obtain ⟨hin, i, content, old, hi, hnode, hsnap⟩ := hworks
        exact ⟨hintact.symm ▸ hin, i, content, old, hnames ▸ hi, (hnodes i (.inl hi)).trans hnode,
          hsnapshot ▸ hsnap⟩
    | capture q current =>
        rw [hs] at hworks
        obtain ⟨i, mode, hi, hnode⟩ := hworks
        exact ⟨i, mode, hnames ▸ hi, (hnodes i (.inl hi)).trans hnode⟩
    | captured q current i =>
        obtain rfl : q = rel := by simpa [hs, Stage.about, Stage.current] using habout
        rw [hs] at hworks hnodes
        exact ⟨hnames.trans hworks.1, by rw [hnodes i (.inr rfl)]; exact hworks.2⟩
    | matched q current i =>
        obtain rfl : q = rel := by simpa [hs, Stage.about, Stage.current] using habout
        rw [hs] at hworks hnodes
        exact ⟨hnames.trans hworks.1, by rw [hnodes i (.inr rfl)]; exact hworks.2⟩
    | verified q current i =>
        rw [hs] at hworks
        exact hnames.trans hworks
    | putBack q again =>
        rw [hs] at hworks
        exact ⟨hnames.trans hworks.1, hsnapshot ▸ hworks.2⟩
    | filling q i again =>
        rw [hs] at hworks
        exact ⟨hnames.trans hworks.1, hsnapshot ▸ hworks.2⟩
    | _ =>
        rw [hs] at hworks
        exact hworks.elim

theorem Exact.exec {rel : String} {w : World} (h : Exact rel w) (haccounted : Accounted w)
    (hlisted : Listed w) {deed : Deed} (hquiet : Quiet rel w deed) : Exact rel (w.exec deed) := by
  cases deed with
  | act answer =>
      obtain rfl : answer = .ok := hquiet
      exact h.act haccounted hlisted
  | replace r node =>
      have hr : r ≠ rel := hquiet
      refine h.elsewhere rfl rfl rfl rfl (Function.update_of_ne (Ne.symm hr) _ _)
        (fun i q hi hq => ?_) (fun i hi => ?_)
      · change Function.update w.names r (some w.next) q = some i at hq
        by_cases hqr : q = r
        · rw [hqr, Function.update_self] at hq
          exact absurd (Option.some.inj hq).symm (haccounted.named rel i hi).ne
        · rw [Function.update_of_ne hqr] at hq
          exact .inl hq
      · refine Function.update_of_ne ?_ _ _
        rcases hi with hi | hi
        · exact (haccounted.named rel i hi).ne
        · exact (haccounted.lt_of_held hi).ne
  | remove r =>
      have hr : r ≠ rel := hquiet
      refine h.elsewhere rfl rfl rfl rfl (Function.update_of_ne (Ne.symm hr) _ _)
        (fun i q hi hq => ?_) (fun i hi => rfl)
      change Function.update w.names r none q = some i at hq
      by_cases hqr : q = r
      · rw [hqr, Function.update_self] at hq
        cases hq
      · rw [Function.update_of_ne hqr] at hq
        exact .inl hq
  | write j content =>
      simp only [World.exec]
      split
      · refine h.elsewhere rfl rfl rfl rfl rfl (fun i q _ hq => .inl hq) fun i hi => ?_
        refine Function.update_of_ne ?_ _ _
        rintro rfl
        exact hi.elim hquiet.1 hquiet.2
      · exact h

end TrwMcp.Rollback
