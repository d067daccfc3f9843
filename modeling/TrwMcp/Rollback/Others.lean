import TrwMcp.Rollback.Restore

/-!
# Other writers' files

Whatever another writer has written, and not taken away itself, has a place at every step: at a
name, in the trash, beside its name, or in the rollback's hands. The condition on a run keeps other
writers out of the file that the next step takes away or writes.
-/

namespace TrwMcp.Rollback

open Lib

/-- The file that may be at an unguessable name only. -/
def Stage.atAside : Stage → Option Nat
  | .aside _ _ i | .asideVerified _ _ i | .asideChanged _ i | .asideLinked _ i => some i
  | _ => none

/-- The file that is off its name for now. -/
def Stage.held : Stage → Option (String × Nat)
  | .captured rel _ i | .mismatched rel _ i | .matched rel _ i | .verified rel _ i
  | .aside rel _ i | .asideVerified rel _ i | .asideChanged rel i | .asideLinked rel i
  | .filling rel i _ | .unlinking rel i _ _ => some (rel, i)
  | _ => none

/-- The file the next step takes away, or writes. -/
def Stage.window : Stage → Option Nat
  | .verified _ _ i | .asideVerified _ _ i | .filling _ i _ | .unlinking _ i _ _ => some i
  | _ => none

/-- A file is at a name, kept in the trash or beside its name, or in the rollback's hands. -/
def World.Placed (w : World) (i : Nat) : Prop :=
  (∃ rel, w.names rel = some i) ∨ (∃ place, (place, i) ∈ w.kept) ∨ w.stage.atAside = some i

/-- A file holds what the run wrote. -/
def World.Own (w : World) (i : Nat) : Prop :=
  ∃ rel current, w.ledger rel = some current ∧ (w.nodes i).bytes = some current

/-- The condition on another writer's step: it writes into files that have a place, not into the one
the rollback is about to take away or is filling, and does not come between a comparison and the
unlink after it. -/
def Regular (w : World) : Deed → Prop
  | .act _ => True
  | .replace rel _ => ∀ i again why, w.stage ≠ .unlinking rel i again why
  | .remove _ => True
  | .write i _ => w.Placed i ∧ w.stage.window ≠ some i ∧
      ∀ rel, w.stage = .asideLinked rel i → w.names rel = some i

/-- What holds at a stage. -/
def Stage.Sound (w : World) : Stage → Prop
  | .captured _ _ i | .mismatched _ _ i | .matched _ _ i | .asideChanged _ i => i < w.next
  | .verified rel current i | .asideVerified rel current i =>
      i < w.next ∧ w.ledger rel = some current ∧ (w.nodes i).bytes = some current
  | .refused rel current => w.ledger rel = some current
  | .aside rel current i => i < w.next ∧ w.ledger rel = some current
  | .asideLinked rel i => i < w.next ∧ (i ∈ w.others → w.names rel = some i)
  | .filling rel i _ => i < w.next ∧ i ∉ w.others ∧ (∀ r, w.names r = some i → r = rel)
  | .unlinking rel i _ _ => i < w.next ∧ i ∉ w.others ∧ (w.names rel = some i ∨ w.names rel = none)
  | _ => True

/-- Nothing another writer wrote, and did not take away itself, is lost, unless it is what the run
wrote. -/
structure Accounted (w : World) : Prop where
  there : ∀ i ∈ w.others, w.Placed i ∨ w.Own i
  fresh : ∀ i ∈ w.others, i < w.next
  named : ∀ rel i, w.names rel = some i → i < w.next
  kept : ∀ x ∈ w.kept, x.2 < w.next
  stage : w.stage.Sound w

/-! ## The rollback's steps -/

/-- The files stay as they are. -/
structure Still (w w' : World) : Prop where
  nodes : w'.nodes = w.nodes
  next : w'.next = w.next
  names : w'.names = w.names
  kept : w'.kept = w.kept
  ledger : w'.ledger = w.ledger
  others : w'.others = w.others

theorem Accounted.still {w w' : World} (h : Accounted w) (hstill : Still w w')
    (haside : w.stage.atAside = none ∨ w.stage.atAside = w'.stage.atAside)
    (hstage : w'.stage.Sound w') : Accounted w' where
  there i hi := by
    rw [hstill.others] at hi
    refine (h.there i hi).imp ?_ ?_
    · rintro (⟨rel, hrel⟩ | ⟨place, hkept⟩ | hi')
      · exact .inl ⟨rel, hstill.names ▸ hrel⟩
      · exact .inr (.inl ⟨place, hstill.kept ▸ hkept⟩)
      · rcases haside with hnone | hsame
        · rw [hnone] at hi'
          cases hi'
        · exact .inr (.inr (hsame ▸ hi'))
    · rintro ⟨rel, current, hledger, hbytes⟩
      exact ⟨rel, current, hstill.ledger ▸ hledger, hstill.nodes ▸ hbytes⟩
  fresh i hi := hstill.next ▸ h.fresh i (hstill.others ▸ hi)
  named rel i hi := hstill.next ▸ h.named rel i (hstill.names ▸ hi)
  kept x hx := hstill.next ▸ h.kept x (hstill.kept ▸ hx)
  stage := hstage

/-- A name is taken off its file, or put on one; what had no other place has one now, or is the
run's. -/
theorem Accounted.rename {w w' : World} (h : Accounted w) {rel : String} {file : Option Nat}
    (hnodes : w'.nodes = w.nodes) (hnext : w'.next = w.next) (hledger : w'.ledger = w.ledger)
    (hothers : w'.others = w.others) (hnames : w'.names = Function.update w.names rel file)
    (hfile : ∀ i, file = some i → i < w.next)
    (hkept : ∀ x ∈ w.kept, x ∈ w'.kept) (hlt : ∀ x ∈ w'.kept, x.2 < w.next)
    (hplaced : ∀ i ∈ w.others, w.names rel = some i ∨ w.stage.atAside = some i →
      w'.Placed i ∨ w.Own i)
    (hstage : w'.stage.Sound w') : Accounted w' where
  there i hi := by
    rw [hothers] at hi
    have hown : w.Own i → w'.Own i := by
      rintro ⟨r, current, hr, hbytes⟩
      exact ⟨r, current, hledger ▸ hr, hnodes ▸ hbytes⟩
    rcases h.there i hi with (⟨r, hr⟩ | ⟨place, hplace⟩ | haside) | ho
    · by_cases hrel : r = rel
      · exact (hplaced i hi (.inl (hrel ▸ hr))).imp_right hown
      · refine .inl (.inl ⟨r, ?_⟩)
        rw [hnames, Function.update_of_ne hrel]
        exact hr
    · exact .inl (.inr (.inl ⟨place, hkept _ hplace⟩))
    · exact (hplaced i hi (.inr haside)).imp_right hown
    · exact .inr (hown ho)
  fresh i hi := hnext ▸ h.fresh i (hothers ▸ hi)
  named r i hi := by
    rw [hnext]
    rw [hnames] at hi
    by_cases hrel : r = rel
    · rw [hrel, Function.update_self] at hi
      exact hfile i hi
    · rw [Function.update_of_ne hrel] at hi
      exact h.named r i hi
  kept x hx := hnext ▸ hlt x hx
  stage := hstage

theorem Accounted.put {w w' : World} (h : Accounted w) {i : Nat} {node : Node}
    (hi : i ∉ w.others) (hnodes : w'.nodes = Function.update w.nodes i node)
    (hnext : w.next ≤ w'.next) (hledger : w'.ledger = w.ledger) (hothers : w'.others = w.others)
    (hnames : ∀ rel j, w.names rel = some j → w'.names rel = some j)
    (hnamed : ∀ rel j, w'.names rel = some j → j < w'.next)
    (hkept : w'.kept = w.kept) (haside : w.stage.atAside = none)
    (hstage : w'.stage.Sound w') : Accounted w' where
  there j hj := by
    rw [hothers] at hj
    rcases h.there j hj with (⟨r, hr⟩ | ⟨place, hplace⟩ | hj') | ⟨r, current, hr, hbytes⟩
    · exact .inl (.inl ⟨r, hnames r j hr⟩)
    · exact .inl (.inr (.inl ⟨place, hkept ▸ hplace⟩))
    · rw [haside] at hj'
      cases hj'
    · refine .inr ⟨r, current, hledger ▸ hr, ?_⟩
      have hne : j ≠ i := fun heq => hi (heq ▸ hj)
      rw [hnodes, Function.update_of_ne hne]
      exact hbytes
  fresh j hj := (h.fresh j (hothers ▸ hj)).trans_le hnext
  named := hnamed
  kept x hx := (h.kept x (hkept ▸ hx)).trans_le hnext
  stage := hstage

theorem Accounted.refuse {w : World} (h : Accounted w) (haside : w.stage.atAside = none)
    (rel : String) (current : Bytes) : Accounted (w.refuse rel current) := by
  unfold World.refuse
  split
  · next howned => exact h.still ⟨rfl, rfl, rfl, rfl, rfl, rfl⟩ (.inl haside) howned
  · exact h.still ⟨rfl, rfl, rfl, rfl, rfl, rfl⟩ (.inl haside) trivial

theorem Accounted.captured {w : World} (h : Accounted w) (haside : w.stage.atAside = none)
    (rel : String) (current : Bytes) (answer : Answer) :
    Accounted (w.capture rel current answer) := by
  unfold World.capture
  split
  · exact h.still ⟨rfl, rfl, rfl, rfl, rfl, rfl⟩ (.inl haside) trivial
  · next i hi =>
      split
      · refine h.rename rfl rfl rfl rfl rfl (fun j hj => by cases hj)
          (fun x hx => List.mem_append_left _ hx) (fun x hx => ?_) (fun j _ hj => ?_)
          (h.named rel i hi)
        · rcases List.mem_append.mp hx with hx | hx
          · exact h.kept x hx
          · rw [List.mem_singleton.mp hx]
            exact h.named rel i hi
        rcases hj with hj | hj
        · obtain rfl := Option.some.inj (hi.symm.trans hj)
          exact .inl (.inr (.inl ⟨.trash, List.mem_append_right _ (by simp)⟩))
        · rw [haside] at hj
          cases hj
      · exact h.refuse haside rel current

theorem Accounted.linkedBack {w : World} (h : Accounted w) {rel : String} {current : Bytes}
    {i : Nat} (hs : w.stage = .mismatched rel current i) (answer : Answer) :
    Accounted (w.linkBack rel current i answer) := by
  have haside : w.stage.atAside = none := by rw [hs]; rfl
  have hi : i < w.next := by
    have hsound := h.stage
    rwa [hs] at hsound
  unfold World.linkBack
  split
  · next hfree =>
      have hlinked : Accounted { w with names := Function.update w.names rel (some i) } := by
        refine h.rename rfl rfl rfl rfl rfl (fun j hj => Option.some.inj hj ▸ hi)
          (fun x hx => hx) h.kept
          (fun j _ hj => ?_) ?_
        · rw [hfree.2, haside] at hj
          rcases hj with hj | hj <;> cases hj
        · change w.stage.Sound _
          rw [hs]
          exact hi
      exact hlinked.refuse haside rel current
  · exact h.still ⟨rfl, rfl, rfl, rfl, rfl, rfl⟩ (.inl haside) trivial

theorem Accounted.dropped {w : World} (h : Accounted w) {rel : String} {current : Bytes} {i : Nat}
    (hs : w.stage = .verified rel current i) :
    Accounted { w with kept := w.kept.erase (.trash, i), stage := .clear } := by
  have hsound := h.stage
  rw [hs] at hsound
  refine ⟨fun j hj => ?_, h.fresh, h.named, fun x hx => h.kept x (List.mem_of_mem_erase hx),
    trivial⟩
  rcases h.there j hj with (hname | ⟨place, hplace⟩ | haside) | hown
  · exact .inl (.inl hname)
  · by_cases hji : j = i
    · exact .inr ⟨rel, current, hsound.2.1, hji ▸ hsound.2.2⟩
    · refine .inl (.inr (.inl ⟨place, ?_⟩))
      refine (List.mem_erase_of_ne fun heq => ?_).mpr hplace
      exact hji (Prod.mk.inj heq).2
  · rw [hs] at haside
    cases haside
  · exact .inr hown

theorem Accounted.movedAside {w : World} (h : Accounted w) {rel : String} {current : Bytes}
    (hs : w.stage = .refused rel current) (answer : Answer) :
    Accounted (w.moveAside rel current answer) := by
  have haside : w.stage.atAside = none := by rw [hs]; rfl
  have howned : w.ledger rel = some current := by
    have hsound := h.stage
    rwa [hs] at hsound
  have htaken : ∀ {i j : Nat}, w.names rel = some i →
      w.names rel = some j ∨ w.stage.atAside = some j → j = i := by
    rintro i j hi (hj | hj)
    · exact Option.some.inj (hj.symm.trans hi)
    · rw [haside] at hj
      cases hj
  unfold World.moveAside
  split
  · exact h.still ⟨rfl, rfl, rfl, rfl, rfl, rfl⟩ (.inl haside) trivial
  · next i hi =>
      cases answer with
      | ok =>
          refine h.rename rfl rfl rfl rfl rfl (fun j hj => by cases hj) (fun x hx => hx) h.kept
            (fun j _ hj => ?_) ⟨h.named rel i hi, howned⟩
          rw [htaken hi hj]
          exact .inl (.inr (.inr rfl))
      | refused => exact h.still ⟨rfl, rfl, rfl, rfl, rfl, rfl⟩ (.inl haside) trivial
      | full =>
          simp only
          split
          · next hbytes =>
              refine h.rename rfl rfl rfl rfl rfl (fun j hj => by cases hj) (fun x hx => hx)
                h.kept (fun j _ hj => ?_) trivial
              rw [htaken hi hj]
              exact .inr ⟨rel, current, howned, hbytes⟩
          · exact h.still ⟨rfl, rfl, rfl, rfl, rfl, rfl⟩ (.inl haside) trivial

/-- What the rollback has in its hands goes back to its name, or stays beside it, unless it is what
the run wrote. -/
theorem Accounted.aside {w : World} (h : Accounted w) (answer : Answer)
    (hs : w.stage.atAside.isSome = true) : Accounted (w.act answer) := by
  have hsound := h.stage
  cases hstage : w.stage with
  | aside rel current i =>
      rw [hstage] at hsound
      simp only [World.act, hstage, World.recheckAside]
      split
      · next hmatch =>
          exact h.still ⟨rfl, rfl, rfl, rfl, rfl, rfl⟩ (.inr (by rw [hstage]; rfl))
            ⟨hsound.1, hsound.2, hmatch.2⟩
      · exact h.still ⟨rfl, rfl, rfl, rfl, rfl, rfl⟩ (.inr (by rw [hstage]; rfl)) hsound.1
  | asideVerified rel current i =>
      rw [hstage] at hsound
      simp only [World.act, hstage]
      refine ⟨fun j hj => ?_, h.fresh, h.named, h.kept, trivial⟩
      rcases h.there j hj with (hname | hkept | haside) | hown
      · exact .inl (.inl hname)
      · exact .inl (.inr (.inl hkept))
      · rw [hstage] at haside
        obtain rfl := Option.some.inj haside
        exact .inr ⟨rel, current, hsound.2⟩
      · exact .inr hown
  | asideChanged rel i =>
      rw [hstage] at hsound
      simp only [World.act, hstage, World.linkAside]
      split
      · next hfree =>
          refine h.rename rfl rfl rfl rfl rfl (fun j hj => Option.some.inj hj ▸ hsound)
            (fun x hx => hx) h.kept (fun j _ hj => ?_) ⟨hsound, fun _ => Function.update_self ..⟩
          rw [hfree.2, hstage] at hj
          rcases hj with hj | hj
          · cases hj
          · exact .inl (.inr (.inr hj))
      · refine ⟨fun j hj => ?_, h.fresh, h.named, fun x hx => ?_, trivial⟩
        on_goal 2 =>
          rcases List.mem_append.mp hx with hx | hx
          · exact h.kept x hx
          · rw [List.mem_singleton.mp hx]
            exact hsound
        rcases h.there j hj with (hname | ⟨place, hkept⟩ | haside) | hown
        · exact .inl (.inl hname)
        · exact .inl (.inr (.inl ⟨place, List.mem_append_left _ hkept⟩))
        · rw [hstage] at haside
          obtain rfl := Option.some.inj haside
          exact .inl (.inr (.inl ⟨.beside, List.mem_append_right _ (by simp)⟩))
        · exact .inr hown
  | asideLinked rel i =>
      rw [hstage] at hsound
      simp only [World.act, hstage]
      refine ⟨fun j hj => ?_, h.fresh, h.named, h.kept, trivial⟩
      rcases h.there j hj with (hname | hkept | haside) | hown
      · exact .inl (.inl hname)
      · exact .inl (.inr (.inl hkept))
      · rw [hstage] at haside
        obtain rfl := Option.some.inj haside
        exact .inl (.inl ⟨rel, hsound.2 hj⟩)
      · exact .inr hown
  | _ =>
      rw [hstage] at hs
      cases hs

theorem Accounted.goto {w : World} (h : Accounted w) (haside : w.stage.atAside = none)
    {stage : Stage} {notes : List Note} (hstage : stage.Sound w) :
    Accounted { w with stage, notes } := by
  refine h.still ⟨rfl, rfl, rfl, rfl, rfl, rfl⟩ (.inl haside) ?_
  cases stage <;> exact hstage

theorem Accounted.retryOrSave {w : World} (h : Accounted w) (haside : w.stage.atAside = none)
    (rel : String) (again : Bool) (answer : Answer) :
    Accounted (w.retryOrSave rel again answer) := by
  unfold World.retryOrSave
  split
  · exact h.goto haside trivial
  · exact h.goto haside trivial

theorem Accounted.madeIntact {w : World} (h : Accounted w) (haside : w.stage.atAside = none)
    (rel : String) {stage : Stage} (hstage : stage.Sound w) :
    Accounted (w.leaveIntact rel stage) := by
  refine h.still ⟨rfl, rfl, rfl, rfl, rfl, rfl⟩ (.inl haside) ?_
  cases stage <;> exact hstage

theorem Accounted.made {w w' : World} (h : Accounted w) (haside : w.stage.atAside = none)
    {rel : String} (hfree : w.names rel = none) {node : Node}
    (hnodes : w'.nodes = Function.update w.nodes w.next node) (hnext : w'.next = w.next + 1)
    (hnames : w'.names = Function.update w.names rel (some w.next))
    (hledger : w'.ledger = w.ledger) (hothers : w'.others = w.others) (hkept : w'.kept = w.kept)
    (hstage : w'.stage.Sound w') : Accounted w' := by
  refine h.put (fun hmem => (h.fresh _ hmem).false) hnodes (by omega) hledger hothers
    (fun r j hj => ?_) (fun r j hj => ?_) hkept haside hstage
  · rw [hnames, Function.update_of_ne]
    · exact hj
    · rintro rfl
      rw [hfree] at hj
      cases hj
  · rw [hnames] at hj
    by_cases hr : r = rel
    · rw [hr, Function.update_self] at hj
      obtain rfl := Option.some.inj hj
      omega
    · rw [Function.update_of_ne hr] at hj
      have := h.named r j hj
      omega

theorem Accounted.copiedBack {w : World} (h : Accounted w) (haside : w.stage.atAside = none)
    (rel : String) (again : Bool) (answer : Answer) :
    Accounted (w.copyBack rel again answer) := by
  unfold World.copyBack
  split
  · exact h.goto haside trivial
  · next node hnode =>
      split
      · exact h.retryOrSave haside rel again answer
      · split
        · split
          · exact h.still ⟨rfl, rfl, rfl, rfl, rfl, rfl⟩ (.inl haside) trivial
          · exact h.goto haside trivial
        · next hfree =>
            simp only
            split
            · refine h.made haside hfree rfl rfl rfl rfl rfl rfl ⟨Nat.lt_succ_self _, ?_, ?_⟩
              · exact fun hmem => (h.fresh _ hmem).false
              · intro r hr
                by_contra hne
                change Function.update w.names rel (some w.next) r = some w.next at hr
                rw [Function.update_of_ne hne] at hr
                exact (h.named r _ hr).false
            · exact h.made haside hfree rfl rfl rfl rfl rfl rfl trivial

theorem Accounted.filled {w : World} (h : Accounted w) {rel : String} {i : Nat} {again : Bool}
    (hs : w.stage = .filling rel i again) (answer : Answer) :
    Accounted (w.fill rel i again answer) := by
  have haside : w.stage.atAside = none := by rw [hs]; rfl
  have hsound := h.stage
  rw [hs] at hsound
  unfold World.fill
  split
  · exact h.put hsound.2.1 rfl le_rfl rfl rfl (fun _ _ hj => hj) h.named rfl haside trivial
  · split
    · next hours => exact h.goto haside ⟨hsound.1, hsound.2.1, .inl hours⟩
    · exact h.retryOrSave haside rel again answer

theorem Accounted.unlinked {w : World} (h : Accounted w) {rel : String} {i : Nat} {again : Bool}
    {why : Answer} (hs : w.stage = .unlinking rel i again why) :
    Accounted ({ w with names := Function.update w.names rel none }.retryOrSave rel again why) := by
  have haside : w.stage.atAside = none := by rw [hs]; rfl
  have hsound := h.stage
  rw [hs] at hsound
  have htaken : Accounted { w with names := Function.update w.names rel none } := by
    refine h.rename rfl rfl rfl rfl rfl (fun j hj => by cases hj) (fun x hx => hx) h.kept
      (fun j hmem hj => ?_) ?_
    · rcases hj with hj | hj
      · rcases hsound.2.2 with hours | hgone
        · obtain rfl := Option.some.inj (hours.symm.trans hj)
          exact absurd hmem hsound.2.1
        · rw [hgone] at hj
          cases hj
      · rw [haside] at hj
        cases hj
    · change w.stage.Sound _
      rw [hs]
      exact ⟨hsound.1, hsound.2.1, .inr (Function.update_self ..)⟩
  exact htaken.retryOrSave haside rel again why

theorem Accounted.cleared {w : World} (h : Accounted w) (haside : w.stage.atAside = none)
    (rel : String) (answer : Answer) : Accounted (w.look rel answer) := by
  unfold World.look
  repeat' split
  · exact h.goto haside trivial
  · exact h.goto haside trivial
  · exact h.goto haside trivial
  · exact h.madeIntact haside rel trivial
  · exact h.goto haside trivial
  · exact h.goto haside trivial

theorem Accounted.compared {w : World} (h : Accounted w) (haside : w.stage.atAside = none)
    (rel : String) (mode : Nat) (answer : Answer) : Accounted (w.compare rel mode answer) := by
  unfold World.compare
  repeat' split
  · exact h.goto haside trivial
  · exact h.goto haside trivial
  · exact h.madeIntact haside rel trivial
  · exact h.madeIntact haside rel trivial
  · exact h.goto haside trivial
  · exact h.goto haside trivial

theorem Accounted.changedMode {w : World} (h : Accounted w) (haside : w.stage.atAside = none)
    (rel : String) (mode : Nat) (answer : Answer) : Accounted (w.chmod rel mode answer) := by
  unfold World.chmod
  split
  · exact h.goto haside trivial
  · next i hi =>
      split
      · next content old hnode =>
          refine ⟨fun j hj => ?_, h.fresh, h.named, h.kept, trivial⟩
          rcases h.there j hj with (hname | hkept | haside') | ⟨r, current, hr, hbytes⟩
          · exact .inl (.inl hname)
          · exact .inl (.inr (.inl hkept))
          · rw [haside] at haside'
            cases haside'
          · refine .inr ⟨r, current, hr, ?_⟩
            change (Function.update w.nodes i _ j).bytes = some current
            by_cases hji : j = i
            · rw [hji, Function.update_self]
              rw [hji, hnode] at hbytes
              exact hbytes
            · rw [Function.update_of_ne hji]
              exact hbytes
      · exact h.goto haside trivial

theorem Accounted.savedCopy {w : World} (h : Accounted w) (haside : w.stage.atAside = none)
    (rel : String) (answer : Answer) : Accounted (w.saveInTrash rel answer) := by
  unfold World.saveInTrash
  split
  · exact h.still ⟨rfl, rfl, rfl, rfl, rfl, rfl⟩ (.inl haside) trivial
  · exact h.still ⟨rfl, rfl, rfl, rfl, rfl, rfl⟩ (.inl haside) trivial
  · exact h.still ⟨rfl, rfl, rfl, rfl, rfl, rfl⟩ (.inl haside) trivial

theorem Accounted.act {w : World} (h : Accounted w) (answer : Answer) :
    Accounted (w.act answer) := by
  have hsound := h.stage
  have haside : w.stage.atAside.isSome = true ∨ w.stage.atAside = none := by
    cases w.stage.atAside <;> simp
  rcases haside with haside | haside
  · exact h.aside answer haside
  cases hs : w.stage with
  | validate =>
      simp only [World.act, hs]
      refine h.still ⟨rfl, rfl, rfl, rfl, rfl, rfl⟩ (.inl haside) ?_
      change Stage.Sound _ (if answer = .ok then .clear else .failed)
      split <;> trivial
  | clear =>
      simp only [World.act, hs]
      split
      · next rel todo htodo =>
          have hnext : Accounted { w with todo } := by
            refine h.still ⟨rfl, rfl, rfl, rfl, rfl, rfl⟩ (.inl haside) ?_
            change w.stage.Sound _
            rw [hs]
            trivial
          exact hs ▸ hnext.cleared haside rel answer
      · split
        · exact h.still ⟨rfl, rfl, rfl, rfl, rfl, rfl⟩ (.inl haside) trivial
        · exact h.goto haside trivial
  | looked rel mode => simpa only [World.act, hs] using h.compared haside rel mode answer
  | chmod rel mode => simpa only [World.act, hs] using h.changedMode haside rel mode answer
  | capture rel current => simpa only [World.act, hs] using h.captured haside rel current answer
  | captured rel current i =>
      rw [hs] at hsound
      simp only [World.act, hs, World.verify]
      split
      · exact h.goto haside hsound
      · exact h.goto haside hsound
  | mismatched rel current i => simpa only [World.act, hs] using h.linkedBack hs answer
  | matched rel current i =>
      rw [hs] at hsound
      simp only [World.act, hs, World.recheck]
      split
      · next hmatch => exact h.goto haside ⟨hsound, hmatch.1, hmatch.2.2⟩
      · exact h.goto haside trivial
  | verified rel current i => simpa only [World.act, hs] using h.dropped hs
  | refused rel current => simpa only [World.act, hs] using h.movedAside hs answer
  | restore =>
      simp only [World.act, hs]
      split
      · exact h.still ⟨rfl, rfl, rfl, rfl, rfl, rfl⟩ (.inl haside) trivial
      · split
        · exact h.still ⟨rfl, rfl, rfl, rfl, rfl, rfl⟩ (.inl haside) trivial
        · exact h.goto haside trivial
  | putBack rel again => simpa only [World.act, hs] using h.copiedBack haside rel again answer
  | filling rel i again => simpa only [World.act, hs] using h.filled hs answer
  | unlinking rel i again why => simpa only [World.act, hs] using h.unlinked hs
  | save rel => simpa only [World.act, hs] using h.savedCopy haside rel answer
  | done => simpa only [World.act, hs] using h
  | failed => simpa only [World.act, hs] using h
  | _ =>
      rw [hs] at haside
      cases haside

/-! ## Other writers' steps -/

theorem mem_replaced {w : World} {rel : String} {i : Nat} (h : i ∈ w.replaced rel) :
    i ∈ w.others ∧ w.names rel ≠ some i := by
  simpa [World.replaced] using h

/-- What another writer does at a name leaves a stage as it is, if it is not one that is about to
unlink the name. -/
theorem Stage.Sound.renamed {w w' : World} {stage : Stage} (h : stage.Sound w) {rel : String}
    {file : Option Nat} (hunlink : ∀ i again why, stage = .unlinking rel i again why → file = none)
    (hnames : w'.names = Function.update w.names rel file) (hnext : w.next ≤ w'.next)
    (hfile : ∀ i, file = some i → w.next ≤ i)
    (hbytes : ∀ i, i < w.next → w'.nodes i = w.nodes i) (hledger : w'.ledger = w.ledger)
    (hothers : ∀ i, i < w.next → i ∈ w'.others → i ∈ w.others ∧ w.names rel ≠ some i) :
    stage.Sound w' := by
  have hother : ∀ {r i}, i < w.next → w'.names r = some i → w.names r = some i := by
    intro r i hi hr
    rw [hnames] at hr
    by_cases hrel : r = rel
    · rw [hrel, Function.update_self] at hr
      have := hfile i hr
      omega
    · rwa [Function.update_of_ne hrel] at hr
  cases stage with
  | captured r current i => exact h.trans_le hnext
  | mismatched r current i => exact h.trans_le hnext
  | matched r current i => exact h.trans_le hnext
  | asideChanged r i => exact h.trans_le hnext
  | verified r current i =>
      exact ⟨h.1.trans_le hnext, hledger ▸ h.2.1, (hbytes i h.1).symm ▸ h.2.2⟩
  | asideVerified r current i =>
      exact ⟨h.1.trans_le hnext, hledger ▸ h.2.1, (hbytes i h.1).symm ▸ h.2.2⟩
  | refused r current =>
      change w'.ledger r = some current
      rw [hledger]
      exact h
  | aside r current i => exact ⟨h.1.trans_le hnext, hledger ▸ h.2⟩
  | asideLinked r i =>
      refine ⟨h.1.trans_le hnext, fun hmem => ?_⟩
      obtain ⟨hmem, hne⟩ := hothers i h.1 hmem
      have hr := h.2 hmem
      rw [hnames, Function.update_of_ne]
      · exact hr
      · rintro rfl
        exact hne hr
  | filling r i again =>
      exact ⟨h.1.trans_le hnext, fun hmem => h.2.1 (hothers i h.1 hmem).1,
        fun r' hr' => h.2.2 r' (hother h.1 hr')⟩
  | unlinking r i again why =>
      refine ⟨h.1.trans_le hnext, fun hmem => h.2.1 (hothers i h.1 hmem).1, ?_⟩
      rw [hnames]
      by_cases hr : r = rel
      · subst hr
        rw [Function.update_self]
        exact .inr (hunlink i again why rfl)
      · rw [Function.update_of_ne hr]
        exact h.2.2
  | _ => trivial

theorem Accounted.replace {w : World} (h : Accounted w) {rel : String} {node : Node}
    (hregular : Regular w (.replace rel node)) : Accounted (w.exec (.replace rel node)) where
  there j hj := by
    rcases List.mem_cons.mp hj with rfl | hj
    · exact .inl (.inl ⟨rel, Function.update_self ..⟩)
    · obtain ⟨hmem, hne⟩ := mem_replaced hj
      rcases h.there j hmem with (⟨r, hr⟩ | hkept | haside) | ⟨r, current, hr, hbytes⟩
      · refine .inl (.inl ⟨r, ?_⟩)
        change Function.update w.names rel (some w.next) r = some j
        rw [Function.update_of_ne]
        · exact hr
        · rintro rfl
          exact hne hr
      · exact .inl (.inr (.inl hkept))
      · exact .inl (.inr (.inr haside))
      · refine .inr ⟨r, current, hr, ?_⟩
        change (Function.update w.nodes w.next node j).bytes = some current
        rw [Function.update_of_ne (h.fresh j hmem).ne]
        exact hbytes
  fresh j hj := by
    rcases List.mem_cons.mp hj with rfl | hj
    · exact Nat.lt_succ_self _
    · exact (h.fresh j (mem_replaced hj).1).trans (Nat.lt_succ_self _)
  named r j hj := by
    change Function.update w.names rel (some w.next) r = some j at hj
    by_cases hr : r = rel
    · rw [hr, Function.update_self] at hj
      exact Option.some.inj hj ▸ Nat.lt_succ_self _
    · rw [Function.update_of_ne hr] at hj
      exact (h.named r j hj).trans (Nat.lt_succ_self _)
  kept x hx := (h.kept x hx).trans (Nat.lt_succ_self _)
  stage := by
    refine h.stage.renamed (fun i again why hs => absurd hs (hregular i again why)) rfl
      (Nat.le_succ _) (fun i hi => (Option.some.inj hi).le) (fun i hi => ?_) rfl
      (fun i hi hmem => ?_)
    · exact Function.update_of_ne hi.ne _ _
    · rcases List.mem_cons.mp hmem with rfl | hmem
      · exact absurd hi (lt_irrefl _)
      · exact mem_replaced hmem

theorem Accounted.remove {w : World} (h : Accounted w) (rel : String) :
    Accounted (w.exec (.remove rel)) where
  there j hj := by
    obtain ⟨hmem, hne⟩ := mem_replaced hj
    rcases h.there j hmem with (⟨r, hr⟩ | hkept | haside) | hown
    · refine .inl (.inl ⟨r, ?_⟩)
      change Function.update w.names rel none r = some j
      rw [Function.update_of_ne]
      · exact hr
      · rintro rfl
        exact hne hr
    · exact .inl (.inr (.inl hkept))
    · exact .inl (.inr (.inr haside))
    · exact .inr hown
  fresh j hj := h.fresh j (mem_replaced hj).1
  named r j hj := by
    change Function.update w.names rel none r = some j at hj
    by_cases hr : r = rel
    · rw [hr, Function.update_self] at hj
      cases hj
    · rw [Function.update_of_ne hr] at hj
      exact h.named r j hj
  kept := h.kept
  stage := by
    refine h.stage.renamed (fun i again why hs => rfl) rfl le_rfl (fun i hi => by cases hi)
      (fun i hi => rfl) rfl (fun i hi hmem => mem_replaced hmem)

theorem Accounted.lt_of_held {w : World} (h : Accounted w) {rel : String} {i : Nat}
    (hheld : w.stage.held = some (rel, i)) : i < w.next := by
  have hsound := h.stage
  cases hs : w.stage with
  | captured r current j =>
      rw [hs] at hsound hheld
      cases hheld
      exact hsound
  | mismatched r current j =>
      rw [hs] at hsound hheld
      cases hheld
      exact hsound
  | matched r current j =>
      rw [hs] at hsound hheld
      cases hheld
      exact hsound
  | asideChanged r j =>
      rw [hs] at hsound hheld
      cases hheld
      exact hsound
  | verified r current j =>
      rw [hs] at hsound hheld
      cases hheld
      exact hsound.1
  | aside r current j =>
      rw [hs] at hsound hheld
      cases hheld
      exact hsound.1
  | asideVerified r current j =>
      rw [hs] at hsound hheld
      cases hheld
      exact hsound.1
  | asideLinked r j =>
      rw [hs] at hsound hheld
      cases hheld
      exact hsound.1
  | filling r j again =>
      rw [hs] at hsound hheld
      cases hheld
      exact hsound.1
  | unlinking r j again why =>
      rw [hs] at hsound hheld
      cases hheld
      exact hsound.1
  | _ =>
      rw [hs] at hheld
      cases hheld

theorem Accounted.lt_of_placed {w : World} (h : Accounted w) {i : Nat} (hplaced : w.Placed i) :
    i < w.next := by
  rcases hplaced with ⟨rel, hrel⟩ | ⟨place, hplace⟩ | haside
  · exact h.named rel i hrel
  · exact h.kept _ hplace
  · have hheld : ∃ rel, w.stage.held = some (rel, i) := by
      revert haside
      cases w.stage <;> simp [Stage.atAside, Stage.held]
    obtain ⟨rel, hrel⟩ := hheld
    exact h.lt_of_held hrel

theorem Accounted.write {w : World} (h : Accounted w) {i : Nat} {content : Bytes}
    (hregular : Regular w (.write i content)) : Accounted (w.exec (.write i content)) := by
  obtain ⟨hplaced, hwindow, hlinked⟩ := hregular
  simp only [World.exec]
  split
  · next old mode hnode =>
      have hother : ∀ {j}, j ≠ i →
          (Function.update w.nodes i (.file content mode) j).bytes = (w.nodes j).bytes :=
        fun hne => by rw [Function.update_of_ne hne]
      refine ⟨fun j hj => ?_, fun j hj => ?_, h.named, h.kept, ?_⟩
      · by_cases hji : j = i
        · exact .inl (hji ▸ hplaced)
        · rcases h.there j ((List.mem_cons.mp hj).resolve_left hji) with hj' | ⟨r, current, hr, hb⟩
          · exact .inl hj'
          · exact .inr ⟨r, current, hr, (hother hji).trans hb⟩
      · rcases List.mem_cons.mp hj with rfl | hj
        · exact h.lt_of_placed hplaced
        · exact h.fresh j hj
      · have hsound := h.stage
        change w.stage.Sound _
        cases hs : w.stage with
        | verified r current j =>
            rw [hs] at hsound hwindow
            have hne : j ≠ i := fun heq => hwindow (heq ▸ rfl)
            exact ⟨hsound.1, hsound.2.1, (hother hne).trans hsound.2.2⟩
        | asideVerified r current j =>
            rw [hs] at hsound hwindow
            have hne : j ≠ i := fun heq => hwindow (heq ▸ rfl)
            exact ⟨hsound.1, hsound.2.1, (hother hne).trans hsound.2.2⟩
        | asideLinked r j =>
            rw [hs] at hsound
            refine ⟨hsound.1, fun hmem => ?_⟩
            rcases List.mem_cons.mp hmem with rfl | hmem
            · exact hlinked r hs
            · exact hsound.2 hmem
        | filling r j again =>
            rw [hs] at hsound hwindow
            have hne : j ≠ i := fun heq => hwindow (heq ▸ rfl)
            exact ⟨hsound.1, fun hmem => hsound.2.1 ((List.mem_cons.mp hmem).resolve_left hne),
              hsound.2.2⟩
        | unlinking r j again why =>
            rw [hs] at hsound hwindow
            have hne : j ≠ i := fun heq => hwindow (heq ▸ rfl)
            exact ⟨hsound.1, fun hmem => hsound.2.1 ((List.mem_cons.mp hmem).resolve_left hne),
              hsound.2.2⟩
        | _ =>
            rw [hs] at hsound
            exact hsound
  · exact h

theorem Accounted.exec {w : World} (h : Accounted w) {deed : Deed} (hregular : Regular w deed) :
    Accounted (w.exec deed) := by
  cases deed with
  | act answer => exact h.act answer
  | replace rel node => exact h.replace hregular
  | remove rel => exact h.remove rel
  | write i content => exact h.write hregular

end TrwMcp.Rollback
