import TrwMcp.Delivery.Claim
import TrwMcp.Lib.Except

/-!
# One identifier, one request

Every claim that came to `CLAIMED` is held by its row, then by its tombstone, and after that by the
age check, if the high-water mark is past the horizon of the identifier when the tombstone goes.
The mark is only raised by commits, and the tombstone is keyed by the text of the identifier; the
condition on a run is about these two.
-/

namespace TrwMcp.Delivery

open Lib

section

variable {A : Type} {digests : Digests}

/-- A maintenance deletes no tombstone whose identifier could still be accepted: the stored
high-water mark is past its horizon, and no claim under way names it. -/
def SafeSweep (w : World A) (now : Int) : Prop :=
  ∀ t ∈ compacted now w.store, t.expiryUtcMs ≤ now →
    timestampMs t.operationId + acceptanceHorizonMs < w.store.highWater ∧
      ∀ a ticket stage, w.underWay a = some (ticket, stage) →
        ticket.args.deliveryId ≠ t.operationId

/-- The condition on one step. -/
def Regular (w : World A) : Deed A → Prop
  | .«begin» _ args _ => lowerText args.deliveryId = args.deliveryId
  | .maintain a => ∀ t stage, w.underWay a = some (t, stage) → SafeSweep w t.effectiveNow
  | .maintenance now => SafeSweep w now
  | _ => True

/-- What is asked of one commit: `EXISTING` names the claim that was `CLAIMED`; another digest, or
another capability while the row is there, is a conflict; and only `CLAIMED` inserts. -/
structure Answered (digests : Digests) (w : World A) (t : Ticket) (result : ClaimResult)
    (store : Store) : Prop where
  existing : result.status = .existing →
    ∃ c ∈ w.claimed, c.uuid = t.uuid ∧ c.requestDigest = t.requestDigest
  conflict : ∀ c ∈ w.claimed, c.uuid = t.uuid →
    (c.requestDigest ≠ t.requestDigest ∨
      ((w.store.operation t.args.deliveryId).isSome = true ∧
        c.args.capabilityToken ≠ t.args.capabilityToken)) → result.status = .conflict
  inserts : result.status ≠ .claimed → store.operations = w.store.operations

/-- The row of a claim. -/
def RowOf (digests : Digests) (c : Ticket) (op : Operation) : Prop :=
  op.operationId = c.args.deliveryId ∧ op.requestDigest = c.requestDigest ∧
    op.capabilityHash = digests.salted op.capabilitySalt c.args.capabilityToken

def StoneOf (c : Ticket) (t : Tombstone) : Prop :=
  t.operationId = c.args.deliveryId ∧ t.requestDigest = c.requestDigest

/-- No claim of the identifier can come through: it is too old, and none is under way. -/
def Closed (w : World A) (c : Ticket) : Prop :=
  timestampMs c.uuid + acceptanceHorizonMs < w.store.highWater ∧
    ∀ a t stage, w.underWay a = some (t, stage) → t.args.deliveryId ≠ c.args.deliveryId

structure Inv (digests : Digests) (w : World A) : Prop where
  nodup : (w.claimed.map (·.uuid)).Nodup
  spelled : ∀ t ∈ w.claimed, t.args.deliveryId = t.uuid
  underWay : ∀ a t stage, w.underWay a = some (t, stage) → t.args.deliveryId = t.uuid
  rows : ∀ op ∈ w.store.operations, ∃ c ∈ w.claimed, RowOf digests c op
  stones : ∀ t ∈ w.store.tombstones, ∃ c ∈ w.claimed, StoneOf c t
  held : ∀ c ∈ w.claimed, (∃ op ∈ w.store.operations, op.operationId = c.args.deliveryId) ∨
    (∃ t ∈ w.store.tombstones, t.operationId = c.args.deliveryId) ∨ Closed w c

/-- A world no claim has been made in. -/
def World.fresh : World A := ⟨{}, fun _ => none, []⟩

theorem Inv.fresh : Inv digests (World.fresh : World A) :=
  ⟨List.nodup_nil, by simp [World.fresh], by simp [World.fresh], by simp [World.fresh],
    by simp [World.fresh], by simp [World.fresh]⟩

/-! ## The two kinds of rows -/

theorem operation_eq_some {s : Store} {id : String} {op : Operation} (h : s.operation id = some op) :
    op ∈ s.operations ∧ op.operationId = id :=
  ⟨List.mem_of_find?_eq_some h, by simpa using List.find?_some h⟩

theorem operation_isSome {s : Store} {id : String} {op : Operation} (hmem : op ∈ s.operations)
    (hid : op.operationId = id) : (s.operation id).isSome = true := by
  rw [Store.operation, List.find?_isSome]
  exact ⟨op, hmem, by simpa using hid⟩

theorem tombstone_eq_some {s : Store} {id : String} {t : Tombstone} (h : s.tombstone id = some t) :
    t ∈ s.tombstones ∧ t.operationId = id :=
  ⟨List.mem_of_find?_eq_some h, by simpa using List.find?_some h⟩

theorem tombstone_isSome {s : Store} {id : String} {t : Tombstone} (hmem : t ∈ s.tombstones)
    (hid : t.operationId = id) : (s.tombstone id).isSome = true := by
  rw [Store.tombstone, List.find?_isSome]
  exact ⟨t, hmem, by simpa using hid⟩

theorem mem_insertTombstones {new tombstones : List Tombstone} {t : Tombstone}
    (h : t ∈ new.foldl insertTombstone tombstones) : t ∈ tombstones ∨ t ∈ new := by
  induction new generalizing tombstones with
  | nil => exact .inl h
  | cons n new ih =>
      rcases ih h with h | h
      · rcases List.mem_append.mp h with h | h
        · exact .inl (List.mem_filter.mp h).1
        · exact .inr (List.mem_singleton.mp h ▸ List.mem_cons_self)
      · exact .inr (List.mem_cons_of_mem _ h)

theorem insertTombstones_keeps {new tombstones : List Tombstone} {id : String}
    (h : ∃ t ∈ tombstones, t.operationId = id) :
    ∃ t ∈ new.foldl insertTombstone tombstones, t.operationId = id := by
  induction new generalizing tombstones with
  | nil => exact h
  | cons n new ih =>
      obtain ⟨t, hmem, hid⟩ := h
      refine ih ?_
      by_cases hn : t.operationId = n.operationId
      · exact ⟨n, by simp [insertTombstone], hn.symm.trans hid⟩
      · exact ⟨t, by simp [insertTombstone, hmem, hn], hid⟩

theorem insertTombstones_new {new tombstones : List Tombstone} {n : Tombstone} (h : n ∈ new) :
    ∃ t ∈ new.foldl insertTombstone tombstones, t.operationId = n.operationId := by
  induction new generalizing tombstones with
  | nil => cases h
  | cons m new ih =>
      rcases List.mem_cons.mp h with rfl | h
      · have hnew : ∃ t ∈ insertTombstone tombstones n, t.operationId = n.operationId :=
          ⟨n, List.mem_append_right _ (List.mem_singleton.mpr rfl), rfl⟩
        change ∃ t ∈ new.foldl insertTombstone (insertTombstone tombstones n), _
        exact insertTombstones_keeps hnew
      · exact ih h

theorem mem_compacted {now : Int} {s : Store} {t : Tombstone} (h : t ∈ compacted now s) :
    t ∈ s.tombstones ∨ ∃ op ∈ s.operations, t = op.tombstone := by
  rcases mem_insertTombstones h with h | h
  · exact .inl h
  · obtain ⟨op, hop, rfl⟩ := List.mem_map.mp h
    exact .inr ⟨op, (List.mem_filter.mp hop).1, rfl⟩

/-! ## Steps -/

theorem Inv.sweep {w : World A} {now : Int} (h : Inv digests w) (hsafe : SafeSweep w now)
    {underWay : A → Option (Ticket × Stage)}
    (hunder : ∀ a t stage, underWay a = some (t, stage) →
      ∃ a' stage', w.underWay a' = some (t, stage')) :
    Inv digests { w with store := runMaintenance now w.store, underWay } := by
  have hclosed : ∀ c, Closed w c →
      Closed { w with store := runMaintenance now w.store, underWay } c := by
    rintro c ⟨hold, hnone⟩
    refine ⟨hold, fun a t stage ha => ?_⟩
    obtain ⟨a', stage', ha'⟩ := hunder a t stage ha
    exact hnone a' t stage' ha'
  have hstone : ∀ c ∈ w.claimed, (∃ t ∈ compacted now w.store, t.operationId = c.args.deliveryId) →
      (∃ t ∈ (runMaintenance now w.store).tombstones, t.operationId = c.args.deliveryId) ∨
        Closed { w with store := runMaintenance now w.store, underWay } c := by
    rintro c hc ⟨t, ht, hid⟩
    by_cases hexpired : t.expiryUtcMs ≤ now
    · obtain ⟨hold, hnone⟩ := hsafe t ht hexpired
      rw [hid] at hold hnone
      exact .inr (hclosed c ⟨h.spelled c hc ▸ hold, hnone⟩)
    · exact .inl ⟨t, List.mem_filter.mpr ⟨ht, by simpa using hexpired⟩, hid⟩
  refine ⟨h.nodup, h.spelled, fun a t stage ha => ?_, fun op hop => ?_, fun t ht => ?_,
    fun c hc => ?_⟩
  · obtain ⟨a', stage', ha'⟩ := hunder a t stage ha
    exact h.underWay a' t stage' ha'
  · exact h.rows op (List.mem_filter.mp hop).1
  · rcases mem_compacted (List.mem_filter.mp ht).1 with ht | ⟨op, hop, rfl⟩
    · exact h.stones t ht
    · obtain ⟨c, hc, hrow⟩ := h.rows op hop
      exact ⟨c, hc, hrow.1, hrow.2.1⟩
  · rcases h.held c hc with ⟨op, hop, hid⟩ | ⟨t, ht, hid⟩ | hclosed'
    · by_cases hexpires : op.expires now = true
      · refine .inr (hstone c hc ?_)
        have hnew : op.tombstone ∈
            (w.store.operations.filter (·.expires now)).map Operation.tombstone :=
          List.mem_map.mpr ⟨op, List.mem_filter.mpr ⟨hop, hexpires⟩, rfl⟩
        obtain ⟨t, ht, htid⟩ := @insertTombstones_new _ w.store.tombstones _ hnew
        exact ⟨t, ht, htid.trans hid⟩
      · exact .inl ⟨op, List.mem_filter.mpr ⟨hop, by simpa using hexpires⟩, hid⟩
    · exact .inr (hstone c hc (insertTombstones_keeps ⟨t, ht, hid⟩))
    · exact .inr (.inr (hclosed c hclosed'))

theorem Inv.withdraw {w : World A} (h : Inv digests w) {underWay : A → Option (Ticket × Stage)}
    (hunder : ∀ a m, underWay a = some m → w.underWay a = some m) :
    Inv digests { w with underWay } where
  nodup := h.nodup
  spelled := h.spelled
  underWay a t stage ha := h.underWay a t stage (hunder a _ ha)
  rows := h.rows
  stones := h.stones
  held c hc := by
    rcases h.held c hc with hrow | hstone | ⟨hold, hnone⟩
    · exact .inl hrow
    · exact .inr (.inl hstone)
    · exact .inr (.inr ⟨hold, fun a t stage ha => hnone a t stage (hunder a _ ha)⟩)

theorem Inv.raise {w : World A} (h : Inv digests w) (mark : Int) :
    Inv digests { w with store := { w.store with highWater := max w.store.highWater mark } } where
  nodup := h.nodup
  spelled := h.spelled
  underWay := h.underWay
  rows := h.rows
  stones := h.stones
  held c hc := by
    rcases h.held c hc with hrow | hstone | ⟨hold, hnone⟩
    · exact .inl hrow
    · exact .inr (.inl hstone)
    · exact .inr (.inr ⟨lt_of_lt_of_le hold (le_max_left _ _), hnone⟩)

theorem update_none [DecidableEq A] {B : Type} {f : A → Option B} {a a' : A} {b : B}
    (h : Function.update f a none a' = some b) : f a' = some b := by
  rw [Function.update_apply] at h
  split at h
  · cases h
  · exact h

theorem validate_ok {id uuid : String} {now : Int} (h : validateDeliveryId id now = .ok uuid) :
    uuid = lowerText id ∧ now - timestampMs uuid ≤ acceptanceHorizonMs := by
  unfold validateDeliveryId at h
  simp only at h
  repeat' split at h
  all_goals try cases h
  rename_i hexpired
  exact ⟨rfl, by simpa using hexpired⟩

theorem beginClaim_ok {s : Store} {args : ClaimArgs} {now : Int} {t : Ticket}
    (h : beginClaim digests s args now = .ok t) :
    t.args = args ∧ t.uuid = lowerText args.deliveryId ∧
      s.highWater - timestampMs t.uuid ≤ acceptanceHorizonMs := by
  unfold beginClaim at h
  simp only at h
  split at h
  · next ticket hchecked =>
      obtain rfl := Except.ok.inj h
      obtain ⟨uuid, huuid, hrest⟩ := Except.bind_eq_ok.mp hchecked
      obtain ⟨hlower, hage⟩ := validate_ok huuid
      split at hrest
      · cases hrest
      · obtain ⟨request, -, hpure⟩ := Except.bind_eq_ok.mp hrest
        obtain rfl := Except.pure_eq_ok.mp hpure
        refine ⟨rfl, hlower, ?_⟩
        have hmark : s.highWater ≤ max now s.highWater := le_max_right _ _
        change s.highWater - timestampMs uuid ≤ _
        omega
  · cases h

theorem Inv.begin [DecidableEq A] {w : World A} (h : Inv digests w) {a : A} {args : ClaimArgs}
    {now : Int} {t : Ticket} (hspelled : lowerText args.deliveryId = args.deliveryId)
    (ht : beginClaim digests w.store args now = .ok t) :
    Inv digests { w with underWay := Function.update w.underWay a (some (t, .checked)) } := by
  obtain ⟨hargs, huuid, hage⟩ := beginClaim_ok ht
  have hid : t.args.deliveryId = t.uuid := by rw [hargs, huuid, hspelled]
  have hunder : ∀ a' t' stage, Function.update w.underWay a (some (t, .checked)) a' =
      some (t', stage) → t' = t ∨ w.underWay a' = some (t', stage) := by
    intro a' t' stage ha'
    rw [Function.update_apply] at ha'
    split at ha'
    · left
      simpa using congrArg Prod.fst (Option.some.inj ha').symm
    · exact .inr ha'
  refine ⟨h.nodup, h.spelled, fun a' t' stage ha' => ?_, h.rows, h.stones, fun c hc => ?_⟩
  · rcases hunder a' t' stage ha' with rfl | ha'
    · exact hid
    · exact h.underWay a' t' stage ha'
  · rcases h.held c hc with hrow | hstone | ⟨hold, hnone⟩
    · exact .inl hrow
    · exact .inr (.inl hstone)
    · refine .inr (.inr ⟨hold, fun a' t' stage ha' => ?_⟩)
      rcases hunder a' t' stage ha' with rfl | ha'
      · intro heq
        have : c.uuid = t'.uuid := by rw [← h.spelled c hc, ← heq, hid]
        rw [this] at hold
        omega
      · exact hnone a' t' stage ha'

theorem Inv.touch {w : World A} (h : Inv digests w) {change : Operation → Operation}
    (hchange : ∀ op ∈ w.store.operations, KeepsRow op (change op)) :
    Inv digests
      { w with store := { w.store with operations := w.store.operations.map change } } where
  nodup := h.nodup
  spelled := h.spelled
  underWay := h.underWay
  rows op hop := by
    obtain ⟨old, hold, rfl⟩ := List.mem_map.mp hop
    obtain ⟨c, hc, hid, hdigest, hhash⟩ := h.rows old hold
    have hkeeps := hchange old hold
    exact ⟨c, hc, hkeeps.operationId.trans hid, hkeeps.requestDigest.trans hdigest,
      by rw [hkeeps.hash, hkeeps.salt, hhash]⟩
  stones := h.stones
  held c hc := by
    rcases h.held c hc with ⟨op, hop, hid⟩ | hrest
    · exact .inl ⟨change op, List.mem_map.mpr ⟨op, hop, rfl⟩,
        (hchange op hop).operationId.trans hid⟩
    · exact .inr hrest

theorem Inv.met {w : World A} (h : Inv digests w) {a : A} {t : Ticket} {stage : Stage}
    (ha : w.underWay a = some (t, stage)) {c : Ticket} (hc : c ∈ w.claimed) (hcu : c.uuid = t.uuid) :
    (w.store.operation t.args.deliveryId).isSome = true ∨
      (w.store.tombstone t.args.deliveryId).isSome = true := by
  have hid : c.args.deliveryId = t.args.deliveryId := by
    rw [h.spelled c hc, h.underWay a t stage ha, hcu]
  rcases h.held c hc with ⟨op, hop, hop'⟩ | ⟨s, hs, hs'⟩ | ⟨-, hnone⟩
  · exact .inl (operation_isSome hop (hop'.trans hid))
  · exact .inr (tombstone_isSome hs (hs'.trans hid))
  · exact absurd hid.symm (hnone a t stage ha)

theorem Inv.unique {w : World A} (h : Inv digests w) {c c' : Ticket} (hc : c ∈ w.claimed)
    (hc' : c' ∈ w.claimed) (hu : c.uuid = c'.uuid) : c = c' :=
  List.inj_on_of_nodup_map h.nodup hc hc' hu

theorem Inv.answered (hsalted : ∀ salt, Function.Injective (digests.salted salt)) {w : World A}
    (h : Inv digests w) {a : A} {t : Ticket} {stage : Stage} (ha : w.underWay a = some (t, stage))
    (salt : String) (staleLeaseMs : Int) (full : Bool) :
    Answered digests w t (commitClaim digests w.store t salt staleLeaseMs full).1
      (commitClaim digests w.store t salt staleLeaseMs full).2 := by
  have hid := h.underWay a t stage ha
  unfold commitClaim
  simp only
  cases hop : w.store.operation t.args.deliveryId with
  | some op =>
      have hop' : Store.operation { w.store with highWater := max w.store.highWater t.effectiveNow }
          t.args.deliveryId = some op := hop
      obtain ⟨hmem, hopid⟩ := operation_eq_some hop
      obtain ⟨c, hc, hcid, hdigest, hhash⟩ := h.rows op hmem
      have hcu : c.uuid = t.uuid := by rw [← h.spelled c hc, ← hcid, hopid, hid]
      simp only [hop']
      split
      · next hsame =>
          refine ⟨fun _ => ⟨c, hc, hcu, hdigest.symm.trans hsame.1⟩, ?_, fun _ => rfl⟩
          intro c' hc' hcu' hdiffers
          obtain rfl := h.unique hc' hc (hcu'.trans hcu.symm)
          rcases hdiffers with hdiffers | ⟨-, hdiffers⟩
          · exact absurd (hdigest.symm.trans hsame.1) hdiffers
          · refine absurd (hsalted op.capabilitySalt ?_).symm hdiffers
            rw [← hhash]
            simpa [verifyCapability] using hsame.2
      · exact ⟨fun hex => (by cases hex), fun _ _ _ _ => rfl, fun _ => rfl⟩
  | none =>
      have hop' : Store.operation { w.store with highWater := max w.store.highWater t.effectiveNow }
          t.args.deliveryId = none := hop
      simp only [hop']
      cases hstone : w.store.tombstone t.args.deliveryId with
      | some stone =>
          have hstone' : Store.tombstone
              { w.store with highWater := max w.store.highWater t.effectiveNow }
              t.args.deliveryId = some stone := hstone
          obtain ⟨hmem, hstoneid⟩ := tombstone_eq_some hstone
          obtain ⟨c, hc, hcid, hdigest⟩ := h.stones stone hmem
          have hcu : c.uuid = t.uuid := by rw [← h.spelled c hc, ← hcid, hstoneid, hid]
          simp only [hstone']
          split
          · next hsame =>
              refine ⟨fun _ => ⟨c, hc, hcu, hdigest.symm.trans hsame⟩, ?_, fun _ => rfl⟩
              intro c' hc' hcu' hdiffers
              obtain rfl := h.unique hc' hc (hcu'.trans hcu.symm)
              rcases hdiffers with hdiffers | ⟨hrow, -⟩
              · exact absurd (hdigest.symm.trans hsame) hdiffers
              · simp [hop] at hrow
          · exact ⟨fun hex => (by cases hex), fun _ _ _ _ => rfl, fun _ => rfl⟩
      | none =>
          have hstone' : Store.tombstone
              { w.store with highWater := max w.store.highWater t.effectiveNow }
              t.args.deliveryId = none := hstone
          have hfirst : ∀ c ∈ w.claimed, c.uuid ≠ t.uuid := by
            intro c hc hcu
            rcases h.met ha hc hcu with hmet | hmet
            · simp [hop] at hmet
            · simp [hstone] at hmet
          simp only [hstone']
          split
          · exact ⟨fun hex => (by cases hex), fun c hc hcu => absurd hcu (hfirst c hc),
              fun _ => rfl⟩
          · exact ⟨fun hex => (by cases hex), fun c hc hcu => absurd hcu (hfirst c hc),
              fun hne => absurd rfl hne⟩

theorem commitClaim_cases (s : Store) (t : Ticket) (salt : String) (staleLeaseMs : Int)
    (full : Bool) :
    ((commitClaim digests s t salt staleLeaseMs full).1.status ≠ .claimed ∧
        (commitClaim digests s t salt staleLeaseMs full).2 =
          { s with highWater := max s.highWater t.effectiveNow }) ∨
      (s.operation t.args.deliveryId = none ∧ s.tombstone t.args.deliveryId = none ∧
        (commitClaim digests s t salt staleLeaseMs full).1.status = .claimed ∧
        (commitClaim digests s t salt staleLeaseMs full).2 =
          { s with
              highWater := max s.highWater t.effectiveNow
              operations := s.operations ++ [t.operation digests salt staleLeaseMs] }) := by
  unfold commitClaim
  simp only
  cases hop : Store.operation { s with highWater := max s.highWater t.effectiveNow }
      t.args.deliveryId with
  | some op =>
      left
      simp only
      split
      · exact ⟨by simp, rfl⟩
      · exact ⟨by simp, rfl⟩
  | none =>
      cases hstone : Store.tombstone { s with highWater := max s.highWater t.effectiveNow }
          t.args.deliveryId with
      | some stone =>
          left
          simp only
          split
          · exact ⟨by simp, rfl⟩
          · exact ⟨by simp, rfl⟩
      | none =>
          simp only
          split
          · exact .inl ⟨by simp, rfl⟩
          · exact .inr ⟨hop, hstone, rfl, rfl⟩

theorem Inv.commit {w : World A} (h : Inv digests w) {a : A} {t : Ticket} {stage : Stage}
    (ha : w.underWay a = some (t, stage)) (salt : String) (staleLeaseMs : Int) (full : Bool) :
    Inv digests (w.committed digests t salt staleLeaseMs full) := by
  rcases @commitClaim_cases digests w.store t salt staleLeaseMs full with
    ⟨hstatus, hstore⟩ | ⟨hop, hstone, hstatus, hstore⟩
  · have hw : w.committed digests t salt staleLeaseMs full =
        { w with store := { w.store with highWater := max w.store.highWater t.effectiveNow } } := by
      simp only [World.committed, hstore, if_neg hstatus]
    rw [hw]
    exact h.raise _
  · have hw : w.committed digests t salt staleLeaseMs full =
        { w with
            store :=
              { w.store with
                  highWater := max w.store.highWater t.effectiveNow
                  operations := w.store.operations ++ [t.operation digests salt staleLeaseMs] }
            claimed := w.claimed ++ [t] } := by
      simp only [World.committed, hstore, if_pos hstatus]
    have hfirst : ∀ c ∈ w.claimed, c.uuid ≠ t.uuid := by
      intro c hc hcu
      rcases h.met ha hc hcu with hmet | hmet
      · simp [hop] at hmet
      · simp [hstone] at hmet
    rw [hw]
    refine ⟨?_, fun c hc => ?_, h.underWay, fun op hop' => ?_, fun s hs => ?_, fun c hc => ?_⟩
    · rw [List.map_append, List.nodup_append]
      refine ⟨h.nodup, List.nodup_singleton _, fun u hu v hv => ?_⟩
      obtain ⟨c, hc, rfl⟩ := List.mem_map.mp hu
      obtain rfl : v = t.uuid := by simpa using hv
      exact hfirst c hc
    · rcases List.mem_append.mp hc with hc | hc
      · exact h.spelled c hc
      · exact List.mem_singleton.mp hc ▸ h.underWay a t stage ha
    · rcases List.mem_append.mp hop' with hop' | hop'
      · obtain ⟨c, hc, hrow⟩ := h.rows op hop'
        exact ⟨c, List.mem_append_left _ hc, hrow⟩
      · obtain rfl := List.mem_singleton.mp hop'
        exact ⟨t, by simp, rfl, rfl, rfl⟩
    · obtain ⟨c, hc, hs'⟩ := h.stones s hs
      exact ⟨c, List.mem_append_left _ hc, hs'⟩
    · rcases List.mem_append.mp hc with hc | hc
      · rcases (h.raise t.effectiveNow).held c hc with ⟨op, hop', hid⟩ | hrest
        · exact .inl ⟨op, List.mem_append_left _ hop', hid⟩
        · exact .inr hrest
      · obtain rfl := List.mem_singleton.mp hc
        exact .inl ⟨_, List.mem_append_right _ (List.mem_singleton.mpr rfl), rfl⟩

/-! ## Runs -/

variable [DecidableEq A]

theorem Inv.step {w w' : World A} {deed : Deed A} (h : Inv digests w)
    (hregular : Regular w deed) (hstep : Step digests w deed w') : Inv digests w' := by
  have hmaintained : ∀ {a : A} {t : Ticket}, w.underWay a = some (t, .checked) →
      ∀ a' t' stage, Function.update w.underWay a (some (t, Stage.maintained)) a' =
        some (t', stage) → ∃ b stage', w.underWay b = some (t', stage') := by
    intro a t ha a' t' stage ha'
    rw [Function.update_apply] at ha'
    split at ha'
    · obtain ⟨rfl, -⟩ : t = t' ∧ Stage.maintained = stage := by simpa using ha'
      exact ⟨a, .checked, ha⟩
    · exact ⟨a', stage, ha'⟩
  cases hstep with
  | checked ht => exact h.begin hregular ht
  | rejected _ => exact h
  | maintained ha => exact h.sweep (hregular _ _ ha) (hmaintained ha)
  | committed ha =>
      refine (h.commit ha _ _ _).withdraw ?_
      intro a' m hm
      exact update_none hm
  | abandoned => exact h.withdraw fun a' m hm => update_none hm
  | maintenance => exact h.sweep hregular fun a t stage ha => ⟨a, stage, ha⟩
  | touched hchange => exact h.touch hchange

/-- One step that meets the condition. -/
def RegularStep (digests : Digests) (w : World A) (deed : Deed A) (w' : World A) : Prop :=
  Step digests w deed w' ∧ Regular w deed

theorem run_inv {w : World A} {deeds : List (Deed A)}
    (h : Run (RegularStep digests) World.fresh deeds w) : Inv digests w :=
  h.invariant (I := Inv digests) Inv.fresh fun _ _ _ hinv hstep => hinv.step hstep.2 hstep.1

end

/-! ### One value, two spellings -/

/-- Digests that keep what they are taken of. -/
def plainDigests : Digests where
  request r := r.runIdentity
  requestBytes _ := 0
  salted salt token := salt ++ token

theorem plainDigests_injective (salt : String) : Function.Injective (plainDigests.salted salt) := by
  intro a b h
  exact String.append_right_inj salt |>.mp h

def sampleId : String := "01900000-0000-7000-8000-0000000000ab"

def sampleClaim (deliveryId : String) : ClaimArgs :=
  { deliveryId, capabilityToken := "0123456789abcdef", projectScope := "p" }

/-- The time inside the identifier. -/
def sampleNow : Int := 1717986918400

def sampleTicket (deliveryId : String) : Ticket :=
  ⟨sampleClaim deliveryId, sampleId, "", "", sampleNow⟩

def sampleDeeds (deliveryId : String) : List (Deed Unit) :=
  [.«begin» () (sampleClaim deliveryId) sampleNow, .maintain (), .commit () "salt" 0 false]

/-- The world after one claim, step by step. -/
def checkedWorld (w : World Unit) (deliveryId : String) : World Unit :=
  { w with underWay := Function.update w.underWay () (some (sampleTicket deliveryId, .checked)) }

def maintainedWorld (w : World Unit) (deliveryId : String) : World Unit :=
  { checkedWorld w deliveryId with
      store := runMaintenance (sampleTicket deliveryId).effectiveNow (checkedWorld w deliveryId).store
      underWay := Function.update (checkedWorld w deliveryId).underWay ()
        (some (sampleTicket deliveryId, .maintained)) }

def claimedWorld (w : World Unit) (deliveryId : String) : World Unit :=
  { (maintainedWorld w deliveryId).committed plainDigests (sampleTicket deliveryId) "salt" 0
      false with
    underWay := Function.update (maintainedWorld w deliveryId).underWay () none }

theorem sample_run {P : World Unit → Deed Unit → Prop} {w : World Unit} {deliveryId : String}
    (h : beginClaim plainDigests w.store (sampleClaim deliveryId) sampleNow =
      .ok (sampleTicket deliveryId))
    (hbegin : P w (.«begin» () (sampleClaim deliveryId) sampleNow))
    (hmaintain : P (checkedWorld w deliveryId) (.maintain ()))
    (hcommit : P (maintainedWorld w deliveryId) (.commit () "salt" 0 false)) :
    Run (fun w deed w' => Step plainDigests w deed w' ∧ P w deed) w (sampleDeeds deliveryId)
      (claimedWorld w deliveryId) := by
  have hchecked : Step plainDigests w (.«begin» () (sampleClaim deliveryId) sampleNow)
      (checkedWorld w deliveryId) := .checked h
  have hmaintained : Step plainDigests (checkedWorld w deliveryId) (.maintain ())
      (maintainedWorld w deliveryId) := .maintained (by simp [checkedWorld])
  have hcommitted : Step plainDigests (maintainedWorld w deliveryId) (.commit () "salt" 0 false)
      (claimedWorld w deliveryId) := .committed (by simp [maintainedWorld])
  exact ((Run.nil.snoc ⟨hchecked, hbegin⟩).snoc ⟨hmaintained, hmaintain⟩).snoc ⟨hcommitted, hcommit⟩

end TrwMcp.Delivery
