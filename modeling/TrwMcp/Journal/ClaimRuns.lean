import TrwMcp.Journal.Claims

/-!
# Claims over whole runs

The runs whose reclaims unlink what they judged keep the invariant, and there the claims exclude
each other. Without that condition two drains that found one claim stale both enter their replay.
-/

namespace TrwMcp.Journal

open Lib

variable {D : Type}

theorem holds_of_replays {phase : Phase D} (h : phase.replays = true) : phase.holds = true := by
  cases phase <;> simp_all [Phase.replays, Phase.holds]

theorem World.inReplay.holder {w : World D} {d : D} (h : w.inReplay d) : w.holder d := by
  obtain ⟨x, hx, hlive, hreplays⟩ := h
  exact ⟨x, hx, hlive, holds_of_replays hreplays⟩

theorem Inv.holder_unique {w : World D} (h : Inv w) {d e : D} (hd : w.holder d)
    (he : w.holder e) : d = e := by
  obtain ⟨f, hf, rfl⟩ := h.owned d hd
  obtain ⟨g, hg, rfl⟩ := h.owned e he
  rw [Option.some.inj (hf.symm.trans hg)]

variable [DecidableEq D]

theorem step_act {w w' : World D} {d : D} {a : Act} (h : step w (.act d a) = some w') :
    ∃ x claim phase, w.drains d = some x ∧ w.live x ∧ drainStep w d x a = some (claim, phase) ∧
      w' = { w with
        claim := claim
        drains := Function.update w.drains d (some { x with phase := phase }) } := by
  unfold step at h
  cases hx : w.drains d with
  | none => simp [hx] at h
  | some x =>
      simp only [hx] at h
      by_cases hlive : w.live x
      · rw [if_pos hlive] at h
        obtain ⟨⟨claim, phase⟩, hout, rfl⟩ := Option.map_eq_some_iff.mp h
        exact ⟨x, claim, phase, rfl, hlive, hout, rfl⟩
      · rw [if_neg hlive] at h
        cases h

theorem Inv.start {w : World D} (h : Inv w) {d : D} {pid : Nat} {birth : ℚ} {seen : Bool}
    (hd : w.drains d = none) (hbirth : w.census pid = some birth) :
    Inv { w with drains := Function.update w.drains d (some
      ⟨⟨pid, birth⟩, ⟨pid, if seen then some birth else none⟩, .writing 1⟩) } := by
  have hold : ∀ e y, w.drains e = some y → e ≠ d := by
    rintro e y hy rfl
    rw [hd] at hy
    cases hy
  have hforth : ∀ e y x, w.drains e = some y → Function.update w.drains d x e = some y :=
    fun e y x hy => (Function.update_of_ne (hold e y hy) ..).trans hy
  have hback : ∀ e y x, Function.update w.drains d (some x) e = some y →
      y = x ∨ w.drains e = some y := by
    intro e y x hy
    rw [Function.update_apply] at hy
    split at hy
    · exact .inl (Option.some.inj hy).symm
    · exact .inr hy
  refine ⟨h.births, ?_, ?_, ?_, ?_, ?_, ?_⟩
  · intro e y hy
    rcases hback e y _ hy with rfl | hy
    · exact h.births pid birth hbirth
    · exact h.homes e y hy
  · intro e y hy
    rcases hback e y _ hy with rfl | hy
    · refine ⟨rfl, fun epoch hepoch => ?_⟩
      cases seen with
      | false => cases hepoch
      | true => exact (Option.some.inj hepoch).symm
    · exact h.payload e y hy
  · intro f hf
    obtain ⟨y, hy, hnames⟩ := h.file f hf
    exact ⟨y, hforth _ _ _ hy, hnames⟩
  · intro e y owner c hy hphase
    rcases hback e y _ hy with rfl | hy
    · cases hphase
    · obtain ⟨v, hv, hnames⟩ := h.probing e y owner c hy hphase
      exact ⟨v, hforth _ _ _ hv, hnames⟩
  · intro e y c hy hphase
    rcases hback e y _ hy with rfl | hy
    · cases hphase
    · obtain ⟨v, hv, hdead⟩ := h.judged e y c hy hphase
      exact ⟨v, hforth _ _ _ hv, hdead⟩
  · rintro e ⟨y, hy, hlive, hholds⟩
    rcases hback e y _ hy with rfl | hy
    · cases hholds
    · exact h.owned e ⟨y, hy, hlive, hholds⟩

theorem Inv.step {w w' : World D} {m : Move D} (h : Inv w) (hs : CleanStep w m w') : Inv w' := by
  obtain ⟨hstep, hclean⟩ := hs
  cases m with
  | tick dt =>
      unfold Journal.step at hstep
      dsimp only at hstep
      split at hstep <;> cases hstep
      next hdt => exact h.tick hdt
  | boot pid dt =>
      unfold Journal.step at hstep
      dsimp only at hstep
      split at hstep <;> cases hstep
      next hdt => exact h.boot hdt.1
  | crash pid =>
      obtain rfl := Option.some.inj hstep
      exact h.crash pid
  | start d pid seen =>
      unfold Journal.step at hstep
      dsimp only at hstep
      split at hstep <;> cases hstep
      next hd hbirth => exact h.start hd hbirth
  | act d a =>
      obtain ⟨x, claim, phase, hx, hlive, hout, rfl⟩ := step_act hstep
      exact h.act hx (drainStep_admissible h hx hlive hclean hout)

theorem inv_of_run {w : World D} {ms : List (Move D)} (h : Run CleanStep {} ms w) : Inv w :=
  h.invariant Inv.init fun _ _ _ hi hs => hi.step hs

theorem claim_of_step {w w' : World D} {m : Move D} (h : step w m = some w') :
    w'.claim = w.claim ∨ ∃ d a, m = .act d a := by
  cases m with
  | act d a => exact .inr ⟨d, a, rfl⟩
  | crash pid =>
      obtain rfl := Option.some.inj h
      exact .inl rfl
  | _ =>
      left
      unfold Journal.step at h
      dsimp only at h
      split at h <;> cases h
      rfl

/-- A step after which the claim file is gone is the release of the drain that held it, or nobody
live held it. -/
theorem Inv.removed {w w' : World D} {m : Move D} (h : Inv w) (hs : CleanStep w m w')
    {f : ClaimFile D} (hf : w.claim = some f) (hgone : w'.claim = none)
    (hholder : w.holder f.creator) : m = .act f.creator (.release true) := by
  obtain ⟨hstep, hclean⟩ := hs
  rcases claim_of_step hstep with hsame | ⟨d, a, rfl⟩
  · rw [hsame, hf] at hgone
    cases hgone
  · obtain ⟨x, claim, phase, hx, hlive, hout, rfl⟩ := step_act hstep
    have hok := drainStep_admissible h hx hlive hclean hout
    obtain rfl : claim = none := hgone
    obtain rfl : f.creator = d := by
      by_contra hne
      obtain ⟨g, hg, -⟩ := hok.others _ f hne hholder hf rfl
      cases hg
    -- the creator itself took the file away
    obtain ⟨y, hy, -, hholds⟩ := hholder
    obtain rfl := Option.some.inj (hx.symm.trans hy)
    cases a with
    | release ok =>
        cases ok with
        | true => rfl
        | false => cases hp : x.phase <;> simp [drainStep, hp, hf] at hout
    | fill ok => cases ok <;> cases hp : x.phase <;> simp [drainStep, hp, hf] at hout
    | unlink ok =>
        cases hp : x.phase <;> simp [drainStep, hp] at hout
        rw [hp] at hholds
        cases hholds
    | _ =>
        cases hp : x.phase <;> simp [drainStep, hp, hf] at hout <;> rw [hp] at hholds <;>
          cases hholds

/-! ## Several drains that found one claim stale -/

/-- The operations that finish `acquire_claim` after a staleness judgement, when the file system
does what it is asked. -/
def Act.reclaims : Act → Bool
  | .unlink true | .write true | .link _ | .open true | .fill true => true
  | _ => false

/-- Only the drains of `F` move, and only to get the claim. -/
def ReclaimStep (F : D → Prop) (w : World D) (m : Move D) (w' : World D) : Prop :=
  CleanStep w m w' ∧ ∃ d a, m = .act d a ∧ F d ∧ a.reclaims = true

/-- `acquire_claim` has returned: with the claim, or without. -/
def World.acquired (w : World D) (d : D) : Prop :=
  ∃ x, w.drains d = some x ∧ (x.phase = .holding ∨ x.phase = .gone)

/-- Between the judgement and the return of `acquire_claim`, without the claim so far. -/
def Phase.retries : Phase D → Bool
  | .writing 2 | .linking 2 _ | .opening 2 => true
  | _ => false

omit [DecidableEq D] in
theorem Phase.retries_cases {p : Phase D} (h : p.retries = true) :
    p = .writing 2 ∨ (∃ mtime, p = .linking 2 mtime) ∨ p = .opening 2 := by
  unfold Phase.retries at h
  split at h
  · exact .inl rfl
  · exact .inr (.inl ⟨_, rfl⟩)
  · exact .inr (.inr rfl)
  · cases h

/-- How far the drains of `F` are with a claim of the dead drain `c`: all of them are about to
unlink it; or it is gone and nobody has won; or one of them has won. -/
inductive Reclaiming (F : D → Prop) (c : D) (w : World D) : Prop
  | judged
      (claim : ∃ f, w.claim = some f ∧ f.creator = c)
      (phases : ∀ d, F d → ∃ x, w.drains d = some x ∧ w.live x ∧ x.phase = .stale (some c))
  | free
      (claim : w.claim = none)
      (phases : ∀ d, F d → ∃ x, w.drains d = some x ∧ w.live x ∧
        (x.phase = .stale (some c) ∨ x.phase.retries = true))
  | won (d₀ : D) (winner : F d₀)
      (holder : ∃ x, w.drains d₀ = some x ∧ w.live x ∧ (x.phase = .filling ∨ x.phase = .holding))
      (phases : ∀ d, F d → d ≠ d₀ → ∃ x, w.drains d = some x ∧ w.live x ∧
        (x.phase = .stale (some c) ∨ x.phase.retries = true ∨ x.phase = .gone))

theorem Reclaiming.step {F : D → Prop} {c : D} {w w' : World D} {m : Move D} (hinv : Inv w)
    (h : Reclaiming F c w) (hs : ReclaimStep F w m w') : Reclaiming F c w' := by
  obtain ⟨⟨hstep, hclean⟩, d, a, rfl, hF, hreclaims⟩ := hs
  obtain ⟨x, claim, phase, hx, hlive, hout, rfl⟩ := step_act hstep
  -- the drains that do not move are where they were
  have hself : Function.update w.drains d (some { x with phase := phase }) d =
      some { x with phase := phase } := Function.update_self ..
  have hother : ∀ e, e ≠ d →
      Function.update w.drains d (some { x with phase := phase }) e = w.drains e :=
    fun e he => Function.update_of_ne he ..
  have hphases : ∀ P Q : Phase D → Prop, (∀ p, P p → Q p) → Q phase →
      ∀ e, (∃ y, w.drains e = some y ∧ w.live y ∧ P y.phase) →
        ∃ y, Function.update w.drains d (some { x with phase := phase }) e = some y ∧
          w.live y ∧ Q y.phase := by
    intro P Q hPQ hQ e he
    by_cases hed : e = d
    · subst hed
      exact ⟨_, hself, hlive, hQ⟩
    · obtain ⟨y, hy, hylive, hP⟩ := he
      exact ⟨y, (hother e hed).trans hy, hylive, hPQ _ hP⟩
  cases h with
  | judged hclaim hph =>
      obtain ⟨y, hy, -, hp⟩ := hph d hF
      obtain rfl := Option.some.inj (hx.symm.trans hy)
      cases a <;> simp [drainStep, hp] at hout
      next ok =>
        cases ok <;> simp [Act.reclaims] at hreclaims
        obtain ⟨rfl, rfl⟩ := hout
        exact .free rfl fun e he =>
          hphases (fun p => p = .stale (some c)) (fun p => p = .stale (some c) ∨ p.retries = true)
            (fun _ h => .inl h) (.inr rfl) e (hph e he)
  | free hclaim hph =>
      obtain ⟨y, hy, -, hp⟩ := hph d hF
      obtain rfl := Option.some.inj (hx.symm.trans hy)
      -- nobody has the claim, so a link wins
      have hwon : phase = .filling ∨ phase = .holding → Reclaiming F c { w with
          claim := claim
          drains := Function.update w.drains d (some { x with phase := phase }) } := by
        intro hphase
        refine .won d hF ⟨_, hself, hlive, hphase⟩ fun e he hne => ?_
        obtain ⟨y, hy, hylive, hP⟩ := hph e he
        exact ⟨y, (hother e hne).trans hy, hylive, hP.imp_right .inl⟩
      have hfree : claim = none → phase.retries = true → Reclaiming F c { w with
          claim := claim
          drains := Function.update w.drains d (some { x with phase := phase }) } :=
        fun hnone hretries => .free hnone fun e he =>
          hphases (fun p => p = .stale (some c) ∨ p.retries = true) _ (fun _ h => h) (.inr hretries)
            e (hph e he)
      rcases hp with hp | hp
      · cases a <;> simp [drainStep, hp] at hout
        next ok =>
          cases ok <;> simp [Act.reclaims] at hreclaims
          obtain ⟨rfl, rfl⟩ := hout
          exact hfree rfl rfl
      · rcases Phase.retries_cases hp with hp | ⟨mtime, hp⟩ | hp
        · cases a <;> simp [drainStep, hp] at hout
          next ok =>
            cases ok <;> simp [Act.reclaims] at hreclaims
            obtain ⟨rfl, rfl⟩ := hout
            exact hfree hclaim rfl
        · cases a <;> simp [drainStep, hp, hclaim] at hout
          next supported =>
            cases supported <;> simp at hout <;> obtain ⟨rfl, rfl⟩ := hout
            · exact hfree rfl rfl
            · exact hwon (.inr rfl)
        · cases a <;> simp [drainStep, hp, hclaim] at hout
          next ok =>
            cases ok <;> simp [Act.reclaims] at hreclaims hout
            obtain ⟨rfl, rfl⟩ := hout
            exact hwon (.inl rfl)
  | won d₀ hF₀ hholder hph =>
      obtain ⟨z, hz, hzlive, hzphase⟩ := hholder
      have hheld : w.holder d₀ := ⟨z, hz, hzlive, by rcases hzphase with h | h <;> rw [h] <;> rfl⟩
      obtain ⟨f, hclaim, hcreator⟩ := hinv.owned d₀ hheld
      by_cases hd : d = d₀
      · subst hd
        obtain rfl := Option.some.inj (hx.symm.trans hz)
        have hphase : phase = .holding := by
          rcases hzphase with hp | hp
          · cases a <;> simp [drainStep, hp] at hout
            next ok =>
              cases ok <;> simp [Act.reclaims] at hreclaims hout
              exact hout.2.symm
          · cases a <;> simp [drainStep, hp] at hout
            simp [Act.reclaims] at hreclaims
        refine .won d hF₀ ⟨_, hself, hlive, .inr hphase⟩ fun e he hne => ?_
        obtain ⟨y, hy, hrest⟩ := hph e he hne
        exact ⟨y, (hother e hne).trans hy, hrest⟩
      · obtain ⟨y, hy, -, hp⟩ := hph d hF hd
        obtain rfl := Option.some.inj (hx.symm.trans hy)
        have hlost : phase.retries = true ∨ phase = .gone → Reclaiming F c { w with
            claim := claim
            drains := Function.update w.drains d (some { x with phase := phase }) } := by
          intro hphase
          refine .won d₀ hF₀ ⟨z, (hother d₀ (Ne.symm hd)).trans hz, hzlive, hzphase⟩ ?_
          intro e he hne
          exact hphases
            (fun p => p = .stale (some c) ∨ p.retries = true ∨ p = .gone) _ (fun _ h => h)
            (.inr hphase) e (hph e he hne)
        rcases hp with hp | hp | hp
        · -- a late finder may not unlink the winner's claim
          cases a <;> simp [drainStep, hp] at hout
          have hjudged : c = d₀ :=
            hcreator ▸ Option.some.inj (hclean x (some c) f hx hp hclaim)
          exact absurd hheld (not_holder_of_dead (hjudged ▸ hinv.judged d x c hx hp))
        · rcases Phase.retries_cases hp with hp | ⟨mtime, hp⟩ | hp
          · cases a <;> simp [drainStep, hp] at hout
            next ok =>
              cases ok <;> simp [Act.reclaims] at hreclaims
              obtain ⟨rfl, rfl⟩ := hout
              exact hlost (.inl rfl)
          · cases a <;> simp [drainStep, hp, hclaim] at hout
            next supported =>
              cases supported <;> simp [publishFailed] at hout <;> obtain ⟨rfl, rfl⟩ := hout
              · exact hlost (.inl rfl)
              · exact hlost (.inr rfl)
          · cases a <;> simp [drainStep, hp, hclaim, publishFailed] at hout
            obtain ⟨rfl, rfl⟩ := hout
            exact hlost (.inr rfl)
        · cases a <;> simp [drainStep, hp] at hout

theorem exactly_one_reclaims {F : D → Prop} {w w' : World D} {ms : List (Move D)}
    {f : ClaimFile D} (hinv : Inv w) (hclaim : w.claim = some f) (hF : ∃ d, F d)
    (hjudged : ∀ d, F d → ∃ x, w.drains d = some x ∧ w.live x ∧
      x.phase = .stale (some f.creator))
    (hrun : Run (ReclaimStep F) w ms w') (hdone : ∀ d, F d → w'.acquired d) :
    ∃ d, F d ∧ (∃ x, w'.drains d = some x ∧ x.phase = .holding) ∧
      ∀ e, F e → (∃ x, w'.drains e = some x ∧ x.phase = .holding) → e = d := by
  have hboth : Inv w' ∧ Reclaiming F f.creator w' :=
    hrun.invariant (I := fun v => Inv v ∧ Reclaiming F f.creator v)
      ⟨hinv, .judged ⟨f, hclaim, rfl⟩ hjudged⟩
      fun _ _ _ hi hs => ⟨hi.1.step hs.1, hi.2.step hi.1 hs⟩
  -- a drain whose `acquire_claim` has returned is past the judgement and the retry
  have hpast : ∀ d x, F d → w'.drains d = some x → x.phase = .holding ∨ x.phase = .gone := by
    intro d x hd hx
    obtain ⟨y, hy, hphase⟩ := hdone d hd
    obtain rfl := Option.some.inj (hx.symm.trans hy)
    exact hphase
  obtain ⟨d, hd⟩ := hF
  cases hboth.2 with
  | judged _ hph =>
      obtain ⟨x, hx, -, hp⟩ := hph d hd
      rcases hpast d x hd hx with h | h <;> rw [h] at hp <;> cases hp
  | free _ hph =>
      obtain ⟨x, hx, -, hp⟩ := hph d hd
      rcases hpast d x hd hx with h | h <;> rw [h] at hp <;> rcases hp with hp | hp <;> cases hp
  | won d₀ hF₀ hholder hph =>
      obtain ⟨z, hz, -, hzphase⟩ := hholder
      have hwinner : z.phase = .holding := by
        rcases hpast d₀ z hF₀ hz with h | h
        · exact h
        · rw [h] at hzphase
          rcases hzphase with hp | hp <;> cases hp
      refine ⟨d₀, hF₀, ⟨z, hz, hwinner⟩, fun e he hholding => ?_⟩
      by_contra hne
      obtain ⟨x, hx, hxp⟩ := hholding
      obtain ⟨y, hy, -, hp⟩ := hph e he hne
      obtain rfl := Option.some.inj (hx.symm.trans hy)
      rw [hxp] at hp
      rcases hp with hp | hp | hp <;> cases hp

/-- In a run whose reclaims unlink what they judged, and judge no claim by its age while its writer
lives: at most one live drain is inside its replay; a claim that a live drain holds is removed by
that drain's own release only; and of several drains that find the claim of a dead one stale, one
ends up with it. -/
theorem claims_exclusive {w : World D} {ms : List (Move D)} (hrun : Run CleanStep {} ms w) :
    (∀ d e, w.inReplay d → w.inReplay e → d = e) ∧
    (∀ m w' f, CleanStep w m w' → w.claim = some f → w'.claim = none → w.holder f.creator →
      m = .act f.creator (.release true)) ∧
    (∀ (F : D → Prop) ms' w' f, w.claim = some f → (∃ d, F d) →
      (∀ d, F d → ∃ x, w.drains d = some x ∧ w.live x ∧ x.phase = .stale (some f.creator)) →
      Run (ReclaimStep F) w ms' w' → (∀ d, F d → w'.acquired d) →
      ∃ d, F d ∧ (∃ x, w'.drains d = some x ∧ x.phase = .holding) ∧
        ∀ e, F e → (∃ x, w'.drains e = some x ∧ x.phase = .holding) → e = d) := by
  have hinv := inv_of_run hrun
  refine ⟨fun d e hd he => hinv.holder_unique hd.holder he.holder, ?_, ?_⟩
  · exact fun m w' f hs hf hgone hholder => hinv.removed hs hf hgone hholder
  · exact fun F ms' w' f hf hF hjudged hrun' hdone =>
      exactly_one_reclaims hinv hf hF hjudged hrun' hdone

/-! ## Two finders -/

/-- The moves on which the condition says nothing. -/
def Move.plain : Move D → Bool
  | .act _ (.unlink _) | .act _ (.stat _) => false
  | _ => true

theorem cleanStep_of_plain {w w' : World D} {m : Move D} (hm : m.plain = true)
    (h : step w m = some w') : CleanStep w m w' := by
  refine ⟨h, ?_⟩
  unfold Move.plain at hm
  split at hm
  · cases hm
  · cases hm
  · next hunlink hstat =>
      unfold Undisturbed
      split
      · next d ok => exact absurd rfl (hunlink d ok)
      · next d ok => exact absurd rfl (hstat d ok)
      · trivial

theorem run_of_plain {w w' : World D} {ms : List (Move D)} (hms : ∀ m ∈ ms, m.plain = true)
    (h : ms.foldlM step w = some w') : Run CleanStep w ms w' := by
  have hrun := Run.of_foldlM h
  clear h
  induction hrun with
  | nil => exact .nil
  | snoc _ hs ih =>
      refine (ih fun m hm => hms m (by simp [hm])).snoc ?_
      exact cleanStep_of_plain (hms _ (by simp)) hs

/-- Drain 0 claims the record and its process dies; the drains 1 and 2 of two other processes both
find the claim stale. -/
def sampleFinders : List (Move Nat) :=
  [.boot 10 1, .start 0 10 true, .act 0 (.write true), .act 0 (.link true), .crash 10,
    .boot 11 1, .boot 12 1, .start 1 11 true, .start 2 12 true,
    .act 1 (.write true), .act 1 (.link true), .act 1 (.read true), .act 1 (.probe true),
    .act 2 (.write true), .act 2 (.link true), .act 2 (.read true), .act 2 (.probe true)]

/-- After its unlink, drain `d` publishes and enters its replay. -/
def samplePublish (d : Nat) : List (Move Nat) :=
  [.act d (.write true), .act d (.link true), .act d (.check true)]

def sampleWorld (ms : List (Move Nat)) : World Nat := (ms.foldlM step {}).getD {}

theorem sampleWorld_eq {ms : List (Move Nat)} (h : (ms.foldlM step ({} : World Nat)).isSome) :
    ms.foldlM step {} = some (sampleWorld ms) := by
  obtain ⟨w, hw⟩ := Option.isSome_iff_exists.mp h
  rw [sampleWorld, hw, Option.getD_some]

theorem sample_run : Run CleanStep {} (sampleFinders ++ [.act 1 (.unlink true)] ++ samplePublish 1)
    (sampleWorld (sampleFinders ++ [.act 1 (.unlink true)] ++ samplePublish 1)) := by
  have hfold := @sampleWorld_eq (sampleFinders ++ [.act 1 (.unlink true)] ++ samplePublish 1)
    (by decide +kernel)
  rw [List.foldlM_append] at hfold
  obtain ⟨w₂, h₂, hrest⟩ := Option.bind_eq_some_iff.mp hfold
  rw [List.foldlM_append] at h₂
  obtain ⟨w₁, h₁, hunlink⟩ := Option.bind_eq_some_iff.mp h₂
  have hdrain : (sampleFinders.foldlM step {}).map (fun w => w.drains 1) =
      some (some ⟨⟨11, 2⟩, ⟨11, some 2⟩, .stale (some 0)⟩) := by decide +kernel
  have hclaim : (sampleFinders.foldlM step {}).map (fun w => w.claim) =
      some (some ⟨some ⟨10, some 1⟩, 1, 0⟩) := by decide +kernel
  rw [h₁, Option.map_some] at hdrain hclaim
  refine ((run_of_plain (by decide) h₁).snoc ⟨by simpa using hunlink, ?_⟩).append
    (run_of_plain (by decide) hrest)
  intro x judged f hx hphase hf
  rw [Option.some.inj hdrain] at hx
  rw [Option.some.inj hclaim] at hf
  obtain rfl := Option.some.inj hx
  obtain rfl := Option.some.inj hf
  exact (Phase.stale.inj hphase).symm

theorem claims_exclusive_sample : ∃ w : World Nat, w.inReplay 1 ∧ ∀ d, w.inReplay d → d = 1 := by
  have hin : (sampleWorld
      (sampleFinders ++ [.act 1 (.unlink true)] ++ samplePublish 1)).inReplay 1 :=
    ⟨⟨⟨11, 2⟩, ⟨11, some 2⟩, .replaying⟩, by decide +kernel, by decide +kernel, rfl⟩
  exact ⟨_, hin, fun d hd => (claims_exclusive sample_run).1 d 1 hd hin⟩

/-- Both finders unlink, the second after the first has published: both replay. -/
theorem both_finders_replay : ¬ ∀ (ms : List (Move Nat)) (w : World Nat),
    Run (fun w m w' => step w m = some w') {} ms w →
    ∀ d e, w.inReplay d → w.inReplay e → d = e := by
  intro h
  have hrun := Run.of_foldlM (@sampleWorld_eq (sampleFinders ++
    (.act 1 (.unlink true) :: samplePublish 1) ++ (.act 2 (.unlink true) :: samplePublish 2))
    (by decide +kernel))
  exact absurd (h _ _ hrun 1 2
    ⟨⟨⟨11, 2⟩, ⟨11, some 2⟩, .replaying⟩, by decide +kernel, by decide +kernel, rfl⟩
    ⟨⟨⟨12, 3⟩, ⟨12, some 3⟩, .replaying⟩, by decide +kernel, by decide +kernel, rfl⟩) (by decide)

end TrwMcp.Journal
