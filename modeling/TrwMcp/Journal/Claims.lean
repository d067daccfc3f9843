import TrwMcp.Lib.Run

/-!
# Learn-journal claims

The claim file of one pending record, and the drains that publish it, judge it, reclaim it and
release it. A drain is one visit of a sweep to the record. Every step below is one file-system
operation or one look at the process table, so the steps of any number of drains interleave freely.

Two claims on a run: what a live drain holds is never unlinked by another, and hence at most one
drain is inside its replay. Both need that what a reclaim unlinks is what it judged.
-/

namespace TrwMcp.Journal

open Lib

/-- `_ILLEGIBLE_CLAIM_GRACE_SECONDS` -/
def illegibleClaimGraceSeconds : ℚ := 5

/-- `BIRTH_EPOCH_SLACK_SECONDS` -/
def birthEpochSlackSeconds : ℚ := 1

/-- A pid names one process together with its birth epoch. -/
structure Process where
  pid : Nat
  birth : ℚ
deriving DecidableEq

/-- `_owner_record`; the epoch is absent where it cannot be observed. -/
structure OwnerRecord where
  pid : Nat
  epoch : Option ℚ
deriving DecidableEq

def OwnerRecord.names (owner : OwnerRecord) (p : Process) : Prop :=
  owner.pid = p.pid ∧ ∀ epoch, owner.epoch = some epoch → epoch = p.birth

section

variable {D : Type}

/-- The claim file. It has no owner between the `O_EXCL` creation of its name and the write of its
payload; `creator` is not in the file, it tells one file of this name from another. -/
structure ClaimFile (D : Type) where
  owner : Option OwnerRecord
  mtime : ℚ
  creator : D
deriving DecidableEq

/-- Where a drain stands: in `_publish`, in `_is_stale`, between the judgement and the unlink, with
the claim, or done with the record. -/
inductive Phase (D : Type) where
  | writing (attempt : Nat)
  | linking (attempt : Nat) (mtime : ℚ)
  | opening (attempt : Nat)
  | filling
  | reading
  | probing (owner : OwnerRecord) (creator : D)
  | stating
  | stale (judged : Option D)
  | holding
  | replaying
  | releasing
  | gone
deriving DecidableEq

def Phase.holds : Phase D → Bool
  | .filling | .holding | .replaying | .releasing => true
  | _ => false

def Phase.replays : Phase D → Bool
  | .replaying => true
  | _ => false

structure Drain (D : Type) where
  home : Process
  payload : OwnerRecord
  phase : Phase D
deriving DecidableEq

/-- `census` is the process table: the birth epoch of the live process of each pid. -/
structure World (D : Type) where
  now : ℚ := 0
  census : Nat → Option ℚ := fun _ => none
  claim : Option (ClaimFile D) := none
  drains : D → Option (Drain D) := fun _ => none

/-- The single operations; a flag is what the file system or the platform answers. -/
inductive Act where
  | write (ok : Bool)
  | link (supported : Bool)
  | open (ok : Bool)
  | fill (ok : Bool)
  | read (readable : Bool)
  | probe (seen : Bool)
  | stat (ok : Bool)
  | unlink (ok : Bool)
  | check (pending : Bool)
  | finish
  | release (ok : Bool)

inductive Move (D : Type) where
  | tick (dt : ℚ)
  | boot (pid : Nat) (dt : ℚ)
  | crash (pid : Nat)
  | start (d : D) (pid : Nat) (seen : Bool)
  | act (d : D) (a : Act)

/-- The last lines of `_is_stale`: a dead pid, or a live one born after the claim's owner. -/
def ownerGone (census : Nat → Option ℚ) (owner : OwnerRecord) (seen : Bool) : Bool :=
  match census owner.pid with
  | none => true
  | some birth =>
      match owner.epoch, seen with
      | some recorded, true => recorded + birthEpochSlackSeconds < birth
      -- the identity cannot be verified: the owner is assumed live
      | _, _ => false

/-- `acquire_claim` after `_publish` returned `False`. -/
def publishFailed (attempt : Nat) : Phase D := if attempt = 2 then .gone else .reading

/-- One operation of a drain: the claim file and the phase after it. -/
def drainStep [DecidableEq D] (w : World D) (d : D) (x : Drain D) :
    Act → Option (Option (ClaimFile D) × Phase D)
  | .write ok =>
      match x.phase with
      | .writing attempt =>
          some (w.claim, if ok then .linking attempt w.now else publishFailed attempt)
      | _ => none
  | .link supported =>
      match x.phase with
      | .linking attempt mtime =>
          match supported, w.claim with
          | false, _ => some (w.claim, .opening attempt)
          | true, some _ => some (w.claim, publishFailed attempt)
          | true, none => some (some ⟨some x.payload, mtime, d⟩, .holding)
      | _ => none
  | .open ok =>
      match x.phase with
      | .opening attempt =>
          match ok, w.claim with
          | true, none => some (some ⟨none, w.now, d⟩, .filling)
          | _, _ => some (w.claim, publishFailed attempt)
      | _ => none
  | .fill ok =>
      match x.phase with
      | .filling =>
          -- a failed `os.write` raises through the whole sweep and leaves the empty file
          if ok then
            -- the write goes to the inode this drain opened, which a peer may have unlinked
            some (w.claim.map fun f =>
              if f.creator = d then { f with owner := some x.payload, mtime := w.now } else f,
              .holding)
          else some (w.claim, .gone)
      | _ => none
  | .read readable =>
      match x.phase with
      | .reading =>
          match readable, w.claim with
          | true, some ⟨some owner, _, creator⟩ => some (w.claim, .probing owner creator)
          | _, _ => some (w.claim, .stating)
      | _ => none
  | .probe seen =>
      match x.phase with
      | .probing owner creator =>
          some (w.claim, if ownerGone w.census owner seen then .stale (some creator) else .gone)
      | _ => none
  | .stat ok =>
      match x.phase with
      | .stating =>
          match ok, w.claim with
          | true, some f =>
              some (w.claim, if w.now - f.mtime < illegibleClaimGraceSeconds then .gone
                else .stale (some f.creator))
          -- the claim vanished: it holds nothing
          | _, _ => some (w.claim, .stale none)
      | _ => none
  | .unlink ok =>
      match x.phase with
      | .stale _ => some (if ok then none else w.claim, if ok then .writing 2 else .gone)
      | _ => none
  | .check pending =>
      match x.phase with
      | .holding => some (w.claim, if pending then .replaying else .releasing)
      | _ => none
  | .finish =>
      match x.phase with
      | .replaying => some (w.claim, .releasing)
      | _ => none
  | .release ok =>
      match x.phase with
      | .releasing => some (if ok then none else w.claim, .gone)
      | _ => none

def World.live (w : World D) (x : Drain D) : Prop := w.census x.home.pid = some x.home.birth

instance (w : World D) (x : Drain D) : Decidable (w.live x) :=
  inferInstanceAs (Decidable (_ = _))

/-- One step of the whole system. A process is born later than every earlier one; a crash stops all
drains of its process where they stand. -/
def step [DecidableEq D] (w : World D) : Move D → Option (World D)
  | .tick dt => if 0 ≤ dt then some { w with now := w.now + dt } else none
  | .boot pid dt =>
      if 0 < dt ∧ w.census pid = none then
        some { w with
          now := w.now + dt
          census := Function.update w.census pid (some (w.now + dt)) }
      else none
  | .crash pid => some { w with census := Function.update w.census pid none }
  | .start d pid seen =>
      match w.drains d, w.census pid with
      | none, some birth =>
          let x : Drain D :=
            ⟨⟨pid, birth⟩, ⟨pid, if seen then some birth else none⟩, .writing 1⟩
          some { w with drains := Function.update w.drains d (some x) }
      | _, _ => none
  | .act d a =>
      match w.drains d with
      | none => none
      | some x =>
          if w.live x then
            (drainStep w d x a).map fun out =>
              { w with
                claim := out.1
                drains := Function.update w.drains d (some { x with phase := out.2 }) }
          else none

/-- The drain's process is alive and it has published the claim and not yet unlinked it. -/
def World.holder (w : World D) (d : D) : Prop :=
  ∃ x, w.drains d = some x ∧ w.live x ∧ x.phase.holds = true

/-- The drain's process is alive and it is inside `replay_fn`. -/
def World.inReplay (w : World D) (d : D) : Prop :=
  ∃ x, w.drains d = some x ∧ w.live x ∧ x.phase.replays = true

def World.dead (w : World D) (d : D) : Prop := ∃ x, w.drains d = some x ∧ ¬ w.live x

/-- What keeps a reclaim honest: the claim it unlinks is the one it judged, or nothing; and the age
of an unreadable claim condemns it only after its writer is gone. -/
def Undisturbed (w : World D) : Move D → Prop
  | .act d (.unlink _) => ∀ x judged f,
      w.drains d = some x → x.phase = .stale judged → w.claim = some f → judged = some f.creator
  | .act _ (.stat _) => ∀ f,
      w.claim = some f → illegibleClaimGraceSeconds ≤ w.now - f.mtime → w.dead f.creator
  | _ => True

/-- The steps that meet the condition. -/
def CleanStep [DecidableEq D] (w : World D) (m : Move D) (w' : World D) : Prop :=
  step w m = some w' ∧ Undisturbed w m

/-! ## The invariant -/

structure Inv (w : World D) : Prop where
  births : ∀ pid birth, w.census pid = some birth → birth ≤ w.now
  homes : ∀ d x, w.drains d = some x → x.home.birth ≤ w.now
  payload : ∀ d x, w.drains d = some x → x.payload.names x.home
  file : ∀ f, w.claim = some f →
    ∃ x, w.drains f.creator = some x ∧ ∀ owner, f.owner = some owner → owner.names x.home
  probing : ∀ d x owner c, w.drains d = some x → x.phase = .probing owner c →
    ∃ y, w.drains c = some y ∧ owner.names y.home
  judged : ∀ d x c, w.drains d = some x → x.phase = .stale (some c) → w.dead c
  owned : ∀ d, w.holder d → ∃ f, w.claim = some f ∧ f.creator = d

theorem Inv.init : Inv ({} : World D) where
  births := by simp
  homes := by simp
  payload := by simp
  file := by simp
  probing := by simp
  judged := by simp
  owned := by simp [World.holder]

theorem not_live_of_ownerGone {w : World D} {x : Drain D} {owner : OwnerRecord} {seen : Bool}
    (hnames : owner.names x.home) (h : ownerGone w.census owner seen = true) : ¬ w.live x := by
  intro hlive
  unfold World.live at hlive
  unfold ownerGone at h
  rw [hnames.1, hlive] at h
  cases hepoch : owner.epoch with
  | none => simp [hepoch] at h
  | some epoch =>
      cases seen with
      | false => simp [hepoch] at h
      | true =>
          have hbirth := hnames.2 epoch hepoch
          simp [hepoch, hbirth, birthEpochSlackSeconds] at h
          linarith

theorem Inv.retime {w : World D} (h : Inv w) {now : ℚ} {census : Nat → Option ℚ}
    (hnow : w.now ≤ now) (hbirths : ∀ pid birth, census pid = some birth → birth ≤ now)
    (hdead : ∀ x : Drain D, x.home.birth ≤ w.now → census x.home.pid = some x.home.birth →
      w.census x.home.pid = some x.home.birth) :
    Inv { w with now := now, census := census } where
  births := hbirths
  homes d x hx := (h.homes d x hx).trans hnow
  payload := h.payload
  file := h.file
  probing := h.probing
  judged d x c hx hphase := by
    obtain ⟨y, hy, hlive⟩ := h.judged d x c hx hphase
    exact ⟨y, hy, fun hy' => hlive (hdead y (h.homes c y hy) hy')⟩
  owned d hd := by
    obtain ⟨x, hx, hlive, hholds⟩ := hd
    exact h.owned d ⟨x, hx, hdead x (h.homes d x hx) hlive, hholds⟩

theorem Inv.tick {w : World D} (h : Inv w) {dt : ℚ} (hdt : 0 ≤ dt) :
    Inv { w with now := w.now + dt } :=
  h.retime (by linarith) (fun pid birth hp => (h.births pid birth hp).trans (by linarith))
    fun _ _ hx => hx

theorem Inv.boot {w : World D} (h : Inv w) {pid : Nat} {dt : ℚ} (hdt : 0 < dt) :
    Inv { w with
      now := w.now + dt
      census := Function.update w.census pid (some (w.now + dt)) } := by
  refine h.retime (by linarith) ?_ ?_
  · intro p birth hp
    by_cases hpid : p = pid
    · subst hpid
      rw [Function.update_self] at hp
      exact (Option.some.inj hp).symm.le
    · rw [Function.update_of_ne hpid] at hp
      have := h.births p birth hp
      linarith
  · -- a drain of an earlier process does not come back to life under its pid
    intro x hold hx
    by_cases hpid : x.home.pid = pid
    · rw [hpid, Function.update_self] at hx
      have := Option.some.inj hx
      linarith
    · rwa [Function.update_of_ne hpid] at hx

theorem Inv.crash {w : World D} (h : Inv w) (pid : Nat) :
    Inv { w with census := Function.update w.census pid none } := by
  refine h.retime le_rfl ?_ ?_
  · intro p birth hp
    by_cases hpid : p = pid
    · rw [hpid, Function.update_self] at hp
      cases hp
    · rw [Function.update_of_ne hpid] at hp
      exact h.births p birth hp
  · intro x _ hx
    by_cases hpid : x.home.pid = pid
    · rw [hpid, Function.update_self] at hx
      cases hx
    · rwa [Function.update_of_ne hpid] at hx

/-- What a drain may do to the claim file and become, for the invariant to survive. -/
structure Admissible (w : World D) (d : D) (x : Drain D) (claim : Option (ClaimFile D))
    (phase : Phase D) : Prop where
  file : ∀ f, claim = some f → w.claim = some f ∨
    (f.creator = d ∧ ∀ owner, f.owner = some owner → owner = x.payload)
  probing : ∀ owner c, phase = .probing owner c →
    ∃ y, w.drains c = some y ∧ owner.names y.home
  judged : ∀ c, phase = .stale (some c) → w.dead c
  owned : phase.holds = true → ∃ f, claim = some f ∧ f.creator = d
  others : ∀ e f, e ≠ d → w.holder e → w.claim = some f → f.creator = e →
    ∃ g, claim = some g ∧ g.creator = e

theorem Admissible.still {w : World D} (h : Inv w) {d : D} {x : Drain D} {phase : Phase D}
    (hx : w.drains d = some x) (hlive : w.live x)
    (hprobing : ∀ owner c, phase = .probing owner c →
      ∃ y, w.drains c = some y ∧ owner.names y.home)
    (hjudged : ∀ c, phase = .stale (some c) → w.dead c)
    (hholds : phase.holds = true → x.phase.holds = true) :
    Admissible w d x w.claim phase where
  file _ hf := .inl hf
  probing := hprobing
  judged := hjudged
  owned hp := h.owned d ⟨x, hx, hlive, hholds hp⟩
  others _ f _ _ hf hcreator := ⟨f, hf, hcreator⟩

theorem Admissible.create {w : World D} {d : D} {x : Drain D} {phase : Phase D}
    {owner : Option OwnerRecord} {mtime : ℚ} (hclaim : w.claim = none)
    (howner : ∀ o, owner = some o → o = x.payload) (hphase : phase = .filling ∨ phase = .holding) :
    Admissible w d x (some ⟨owner, mtime, d⟩) phase where
  file f hf := by
    obtain rfl := Option.some.inj hf
    exact .inr ⟨rfl, howner⟩
  probing _ _ hp := by rcases hphase with rfl | rfl <;> cases hp
  judged _ hp := by rcases hphase with rfl | rfl <;> cases hp
  owned _ := ⟨_, rfl, rfl⟩
  others _ f _ _ hf _ := by rw [hclaim] at hf; cases hf

theorem Admissible.remove {w : World D} {d : D} {x : Drain D} {phase : Phase D}
    (hphase : phase = .gone ∨ phase = .writing 2)
    (hfree : ∀ f, w.claim = some f → f.creator ≠ d → ¬ w.holder f.creator) :
    Admissible w d x none phase where
  file _ hf := by cases hf
  probing _ _ hp := by rcases hphase with rfl | rfl <;> cases hp
  judged _ hp := by rcases hphase with rfl | rfl <;> cases hp
  owned hp := by rcases hphase with rfl | rfl <;> cases hp
  others e f he hholder hf hcreator := by
    subst hcreator
    exact absurd hholder (hfree f hf he)

theorem not_holder_of_dead {w : World D} {d : D} (h : w.dead d) : ¬ w.holder d := by
  rintro ⟨x, hx, hlive, -⟩
  obtain ⟨y, hy, hdead⟩ := h
  obtain rfl := Option.some.inj (hx.symm.trans hy)
  exact hdead hlive

@[simp] theorem publishFailed_holds (attempt : Nat) :
    (publishFailed attempt : Phase D).holds = false := by
  unfold publishFailed
  split <;> rfl

@[simp] theorem publishFailed_ne_probing (attempt : Nat) (owner : OwnerRecord) (c : D) :
    (publishFailed attempt : Phase D) ≠ .probing owner c := by
  unfold publishFailed
  split <;> simp

@[simp] theorem publishFailed_ne_stale (attempt : Nat) (judged : Option D) :
    (publishFailed attempt : Phase D) ≠ .stale judged := by
  unfold publishFailed
  split <;> simp

variable [DecidableEq D]

theorem dead_of_act {w : World D} {d c : D} {x : Drain D} {claim : Option (ClaimFile D)}
    {phase : Phase D} (hx : w.drains d = some x) (h : w.dead c) :
    World.dead { w with
      claim := claim
      drains := Function.update w.drains d (some { x with phase := phase }) } c := by
  obtain ⟨y, hy, hdead⟩ := h
  by_cases hc : c = d
  · subst hc
    obtain rfl := Option.some.inj (hx.symm.trans hy)
    exact ⟨_, Function.update_self .., hdead⟩
  · exact ⟨y, (Function.update_of_ne hc ..).trans hy, hdead⟩

theorem Inv.act {w : World D} (h : Inv w) {d : D} {x : Drain D} {claim : Option (ClaimFile D)}
    {phase : Phase D} (hx : w.drains d = some x) (hok : Admissible w d x claim phase) :
    Inv { w with
      claim := claim
      drains := Function.update w.drains d (some { x with phase := phase }) } := by
  -- homes and payloads do not change
  have hback : ∀ e y, Function.update w.drains d (some { x with phase := phase }) e = some y →
      ∃ z, w.drains e = some z ∧ y.home = z.home ∧ y.payload = z.payload ∧
        ((e = d ∧ y.phase = phase) ∨ (e ≠ d ∧ y = z)) := by
    intro e y hy
    by_cases he : e = d
    · subst he
      rw [Function.update_self] at hy
      obtain rfl := Option.some.inj hy
      exact ⟨x, hx, rfl, rfl, .inl ⟨rfl, rfl⟩⟩
    · rw [Function.update_of_ne he] at hy
      exact ⟨y, hy, rfl, rfl, .inr ⟨he, rfl⟩⟩
  have hforth : ∀ e z, w.drains e = some z →
      ∃ y, Function.update w.drains d (some { x with phase := phase }) e = some y ∧
        y.home = z.home := by
    intro e z hz
    by_cases he : e = d
    · subst he
      obtain rfl := Option.some.inj (hx.symm.trans hz)
      exact ⟨_, Function.update_self .., rfl⟩
    · exact ⟨z, (Function.update_of_ne he ..).trans hz, rfl⟩
  refine ⟨h.births, ?_, ?_, ?_, ?_, ?_, ?_⟩
  · intro e y hy
    obtain ⟨z, hz, hhome, -⟩ := hback e y hy
    rw [hhome]
    exact h.homes e z hz
  · intro e y hy
    obtain ⟨z, hz, hhome, hpayload, -⟩ := hback e y hy
    rw [hhome, hpayload]
    exact h.payload e z hz
  · intro f hf
    rcases hok.file f hf with hold | ⟨hcreator, howner⟩
    · obtain ⟨z, hz, hnames⟩ := h.file f hold
      obtain ⟨y, hy, hhome⟩ := hforth _ z hz
      exact ⟨y, hy, fun owner ho => hhome ▸ hnames owner ho⟩
    · obtain ⟨y, hy, hhome⟩ := hforth d x hx
      refine ⟨y, hcreator ▸ hy, fun owner ho => ?_⟩
      rw [howner owner ho, hhome]
      exact h.payload d x hx
  · intro e y owner c hy hphase
    obtain ⟨z, hz, -, -, ⟨rfl, hp⟩ | ⟨hne, rfl⟩⟩ := hback e y hy
    · obtain ⟨v, hv, hnames⟩ := hok.probing owner c (hp ▸ hphase)
      obtain ⟨u, hu, hhome⟩ := hforth c v hv
      exact ⟨u, hu, hhome ▸ hnames⟩
    · obtain ⟨v, hv, hnames⟩ := h.probing e y owner c hz hphase
      obtain ⟨u, hu, hhome⟩ := hforth c v hv
      exact ⟨u, hu, hhome ▸ hnames⟩
  · intro e y c hy hphase
    obtain ⟨z, hz, -, -, ⟨rfl, hp⟩ | ⟨hne, rfl⟩⟩ := hback e y hy
    · exact dead_of_act hx (hok.judged c (hp ▸ hphase))
    · exact dead_of_act hx (h.judged e y c hz hphase)
  · rintro e ⟨y, hy, hlive, hholds⟩
    obtain ⟨z, hz, -, -, ⟨rfl, hp⟩ | ⟨hne, rfl⟩⟩ := hback e y hy
    · exact hok.owned (hp ▸ hholds)
    · have hholder : w.holder e := ⟨y, hz, hlive, hholds⟩
      obtain ⟨f, hf, hcreator⟩ := h.owned e hholder
      exact hok.others e f hne hholder hf hcreator

theorem drainStep_admissible {w : World D} (h : Inv w) {d : D} {x : Drain D} {a : Act}
    {claim : Option (ClaimFile D)} {phase : Phase D} (hx : w.drains d = some x)
    (hlive : w.live x) (hclean : Undisturbed w (.act d a))
    (hstep : drainStep w d x a = some (claim, phase)) : Admissible w d x claim phase := by
  cases a with
  | write ok =>
      cases hphase : x.phase <;> simp only [drainStep, hphase] at hstep <;> try cases hstep
      cases ok with
      | false => apply Admissible.still h hx hlive <;> simp
      | true => apply Admissible.still h hx hlive <;> simp [Phase.holds]
  | link supported =>
      cases hphase : x.phase <;> simp only [drainStep, hphase] at hstep <;> try cases hstep
      split at hstep <;> cases hstep
      · apply Admissible.still h hx hlive <;> simp [Phase.holds]
      · apply Admissible.still h hx hlive <;> simp
      · next hclaim => exact Admissible.create hclaim (by simp) (.inr rfl)
  | «open» ok =>
      cases hphase : x.phase <;> simp only [drainStep, hphase] at hstep <;> try cases hstep
      split at hstep <;> cases hstep
      · next hclaim => exact Admissible.create hclaim (by simp) (.inl rfl)
      · apply Admissible.still h hx hlive <;> simp
  | fill ok =>
      cases hphase : x.phase <;> simp only [drainStep, hphase] at hstep <;> try cases hstep
      split at hstep <;> cases hstep
      · -- the file this drain opened is still there, since it holds it
        obtain ⟨f, hf, rfl⟩ := h.owned d ⟨x, hx, hlive, by rw [hphase]; rfl⟩
        refine ⟨?_, by simp, by simp, fun _ => ⟨_, by rw [hf]; rfl, by simp⟩, ?_⟩
        · intro g hg
          rw [hf, Option.map_some, if_pos rfl] at hg
          obtain rfl := Option.some.inj hg
          exact .inr ⟨rfl, by simp⟩
        · intro e g he _ hg hcreator
          obtain rfl := Option.some.inj (hf.symm.trans hg)
          exact absurd hcreator.symm he
      · apply Admissible.still h hx hlive <;> simp [Phase.holds]
  | read readable =>
      cases hphase : x.phase <;> simp only [drainStep, hphase] at hstep <;> try cases hstep
      split at hstep <;> cases hstep
      · next owner mtime creator hclaim =>
          apply Admissible.still h hx hlive
          · intro o c hp
            cases hp
            obtain ⟨y, hy, hnames⟩ := h.file _ hclaim
            exact ⟨y, hy, hnames owner rfl⟩
          · simp
          · simp [Phase.holds]
      · apply Admissible.still h hx hlive <;> simp [Phase.holds]
  | probe seen =>
      cases hphase : x.phase <;> simp only [drainStep, hphase] at hstep <;> try cases hstep
      next owner c =>
        obtain ⟨y, hy, hnames⟩ := h.probing d x owner c hx hphase
        apply Admissible.still h hx hlive
        · intro o e hp
          split at hp <;> cases hp
        · intro e hp
          split at hp <;> cases hp
          next hgone => exact ⟨y, hy, not_live_of_ownerGone hnames hgone⟩
        · split <;> simp [Phase.holds]
  | stat ok =>
      cases hphase : x.phase <;> simp only [drainStep, hphase] at hstep <;> try cases hstep
      split at hstep <;> cases hstep
      · next f hclaim =>
          apply Admissible.still h hx hlive
          · intro o e hp
            split at hp <;> cases hp
          · intro e hp
            split at hp <;> cases hp
            next hage => exact hclean f hclaim (not_lt.mp hage)
          · split <;> simp [Phase.holds]
      · apply Admissible.still h hx hlive <;> simp [Phase.holds]
  | unlink ok =>
      cases hphase : x.phase <;> simp only [drainStep, hphase] at hstep <;> try cases hstep
      next judged =>
        cases ok with
        | false => apply Admissible.still h hx hlive <;> simp [Phase.holds]
        | true =>
            refine Admissible.remove (.inr rfl) fun f hf _ => ?_
            have hjudged := hclean x judged f hx hphase hf
            exact not_holder_of_dead (h.judged d x f.creator hx (hjudged ▸ hphase))
  | check pending =>
      cases hphase : x.phase <;> simp only [drainStep, hphase] at hstep <;> try cases hstep
      apply Admissible.still h hx hlive <;> cases pending <;> simp [hphase, Phase.holds]
  | finish =>
      cases hphase : x.phase <;> simp only [drainStep, hphase] at hstep <;> try cases hstep
      apply Admissible.still h hx hlive <;> simp [hphase, Phase.holds]
  | release ok =>
      cases hphase : x.phase <;> simp only [drainStep, hphase] at hstep <;> try cases hstep
      cases ok with
      | false => apply Admissible.still h hx hlive <;> simp [Phase.holds]
      | true =>
          -- what a holder releases is its own claim
          refine Admissible.remove (.inl rfl) fun f hf hne => ?_
          obtain ⟨g, hg, hcreator⟩ := h.owned d ⟨x, hx, hlive, by rw [hphase]; rfl⟩
          obtain rfl := Option.some.inj (hf.symm.trans hg)
          exact absurd hcreator hne

end

end TrwMcp.Journal
