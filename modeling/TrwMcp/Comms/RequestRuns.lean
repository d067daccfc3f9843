import TrwMcp.Comms.AhrAgree
import TrwMcp.Comms.RequestKeys

/-!
# One request key over whole runs

The admission and the notify keep the invariant of the rows; the tombstones drop the bodies of one
notify together, since its rows have one deadline.
-/

namespace TrwMcp.Comms

open Handoff Lib

/-! ## The invariant -/

section

variable {T : Type}

/-- The rows, without what a receiver changes of them. -/
def cores (db : Db T) : List (Row T) := db.admissions.map fun m => (m.1, m.2.core)

/-- The group, the sender and the key. -/
def Admission.triple (a : Admission T) : String × String × String :=
  (a.groupId, a.senderMemberId, a.requestKey)

/-- The group and the sender. -/
def Admission.origin (a : Admission T) : String × String := (a.groupId, a.senderMemberId)

/-- Two rows of one notify. -/
structure Agrees (a b : Admission T) : Prop where
  scope : scopeDigestOf a.requestKey = scopeDigestOf b.requestKey
  body : a.body = b.body
  kind : a.kind = b.kind
  deliveryClass : a.deliveryClass = b.deliveryClass
  expiresAt : a.expiresAt = b.expiresAt

variable (lib : Stdlib) (K : Set String)

/-- A direct row's key is a caller's, and plain; a shard row's is the one derived for its
recipient. -/
def Shaped (a : Admission T) : Prop :=
  (hasControlCharacters a.requestKey = false ∧ a.requestKey ∈ K) ∨
    (isShardKey a.requestKey = true ∧
      ∃ k scope, a.requestKey = shardKey lib k scope a.recipientMemberId)

structure Keyed (rows : List (Row T)) : Prop where
  unique : (rows.map fun m => m.2.triple).Nodup
  shaped : ∀ m ∈ rows, Shaped lib K m.2
  uniform : ∀ m ∈ rows, ∀ n ∈ rows, ∀ k, m.2.origin = n.2.origin → Under lib k m.2.requestKey →
    Under lib k n.2.requestKey → Agrees m.2 n.2
  exclusive : ∀ m ∈ rows, ∀ n ∈ rows, ∀ k, m.2.origin = n.2.origin →
    hasControlCharacters k = false → m.2.requestKey = k → ¬ Under lib k n.2.requestKey

/-- No two of the callers' keys have one digest. -/
def DigestsDiffer : Prop := Set.InjOn (fun k => textDigest lib k 32) K

variable {lib} {K}

theorem Keyed.nil : Keyed lib K ([] : List (Row T)) :=
  ⟨List.nodup_nil, by simp, by simp, by simp⟩

theorem plain_shard_key {key : String} (h : isShardKey key = true) :
    hasControlCharacters key = true := by
  unfold isShardKey shardParts at h
  unfold hasControlCharacters
  cases hkey : key.toList with
  | nil =>
      rw [hkey] at h
      simp [expect] at h
  | cons c cs =>
      rw [hkey] at h
      have hc : c = shard := by
        by_contra hne
        simp [expect, hne] at h
      rw [List.any_eq_true]
      exact ⟨c, List.mem_cons_self, by rw [hc]; decide⟩

theorem shardKey_control (k scope member : String) :
    hasControlCharacters (shardKey lib k scope member) = true := by
  unfold hasControlCharacters
  rw [shardKey_toList, List.any_eq_true]
  exact ⟨shard, List.mem_cons_self, by decide⟩

theorem Keyed.append {rows : List (Row T)} (h : Keyed lib K rows) {row : Row T}
    (hunique : ∀ m ∈ rows, m.2.triple ≠ row.2.triple) (hshaped : Shaped lib K row.2)
    (huniform : ∀ m ∈ rows, ∀ k, m.2.origin = row.2.origin → Under lib k m.2.requestKey →
      Under lib k row.2.requestKey → Agrees m.2 row.2)
    (hdirect : ∀ m ∈ rows, m.2.origin = row.2.origin →
      hasControlCharacters m.2.requestKey = false → ¬ Under lib m.2.requestKey row.2.requestKey)
    (hshards : hasControlCharacters row.2.requestKey = false → ∀ m ∈ rows,
      m.2.origin = row.2.origin → ¬ Under lib row.2.requestKey m.2.requestKey) :
    Keyed lib K (rows ++ [row]) := by
  refine ⟨?_, ?_, ?_, ?_⟩
  · rw [List.map_append, List.nodup_append]
    refine ⟨h.unique, by simp, ?_⟩
    intro t ht t' ht' heq
    obtain ⟨m, hm, rfl⟩ := List.mem_map.mp ht
    rw [List.map_cons, List.map_nil, List.mem_singleton] at ht'
    exact hunique m hm (heq.trans ht')
  · intro m hm
    rcases List.mem_append.mp hm with hm | hm
    · exact h.shaped m hm
    · rw [List.mem_singleton.mp hm]
      exact hshaped
  · intro m hm n hn k horigin hkm hkn
    rcases List.mem_append.mp hm with hm | hm
    · rcases List.mem_append.mp hn with hn | hn
      · exact h.uniform m hm n hn k horigin hkm hkn
      · rw [List.mem_singleton.mp hn] at horigin hkn ⊢
        exact huniform m hm k horigin hkm hkn
    · rw [List.mem_singleton.mp hm] at horigin hkm ⊢
      rcases List.mem_append.mp hn with hn | hn
      · obtain ⟨hs, hb, hk, hd, he⟩ := huniform n hn k horigin.symm hkn hkm
        exact ⟨hs.symm, hb.symm, hk.symm, hd.symm, he.symm⟩
      · rw [List.mem_singleton.mp hn]
        exact ⟨rfl, rfl, rfl, rfl, rfl⟩
  · intro m hm n hn k horigin hplain hkey
    rcases List.mem_append.mp hm with hm | hm
    · rcases List.mem_append.mp hn with hn | hn
      · exact h.exclusive m hm n hn k horigin hplain hkey
      · rw [List.mem_singleton.mp hn] at horigin ⊢
        subst hkey
        exact hdirect m hm horigin hplain
    · rw [List.mem_singleton.mp hm] at horigin hkey
      subst hkey
      rcases List.mem_append.mp hn with hn | hn
      · exact hshards hplain n hn horigin.symm
      · rw [List.mem_singleton.mp hn]
        exact not_under_of_plain hplain

theorem Keyed.map_body {rows : List (Row T)} (h : Keyed lib K rows) (f : Admission T → String)
    (hf : ∀ m ∈ rows, ∀ n ∈ rows, m.2.origin = n.2.origin → Agrees m.2 n.2 → f m.2 = f n.2) :
    Keyed lib K (rows.map fun m => (m.1, { m.2 with body := f m.2 })) := by
  refine ⟨?_, ?_, ?_, ?_⟩
  · rw [List.map_map]
    exact h.unique
  · intro m hm
    obtain ⟨m', hm', rfl⟩ := List.mem_map.mp hm
    exact h.shaped m' hm'
  · intro m hm n hn k horigin hkm hkn
    obtain ⟨m', hm', rfl⟩ := List.mem_map.mp hm
    obtain ⟨n', hn', rfl⟩ := List.mem_map.mp hn
    have hagrees := h.uniform m' hm' n' hn' k horigin hkm hkn
    exact ⟨hagrees.scope, hf m' hm' n' hn' horigin hagrees, hagrees.kind, hagrees.deliveryClass,
      hagrees.expiresAt⟩
  · intro m hm n hn k horigin hplain hkey
    obtain ⟨m', hm', rfl⟩ := List.mem_map.mp hm
    obtain ⟨n', hn', rfl⟩ := List.mem_map.mp hn
    exact h.exclusive m' hm' n' hn' k horigin hplain hkey

/-! ## Rows found -/

variable {db db' : Db T}

theorem mem_cores {m : Row T} (h : m ∈ db.admissions) : (m.1, m.2.core) ∈ cores db :=
  List.mem_map_of_mem h

theorem of_mem_cores {m : Row T} (h : m ∈ cores db) :
    ∃ n ∈ db.admissions, n.1 = m.1 ∧ n.2.core = m.2 := by
  obtain ⟨n, hn, rfl⟩ := List.mem_map.mp h
  exact ⟨n, hn, rfl, rfl⟩

theorem existingRow_none {groupId sender key : String}
    (h : existingRow db groupId sender key = none) :
    ∀ m ∈ db.admissions, m.2.triple ≠ (groupId, sender, key) := by
  intro m hm heq
  unfold existingRow at h
  have := List.find?_eq_none.mp h m hm
  simp only [Admission.triple, Prod.mk.injEq] at heq
  simp [heq] at this

theorem existingRow_some {groupId sender key : String} {m : Row T}
    (h : existingRow db groupId sender key = some m) :
    m ∈ db.admissions ∧ m.2.triple = (groupId, sender, key) := by
  unfold existingRow at h
  refine ⟨List.mem_of_find?_eq_some h, ?_⟩
  have := List.find?_some h
  simp only [Bool.and_eq_true, beq_iff_eq] at this
  rw [Admission.triple, this.1.1, this.1.2, this.2]

theorem existingRow_isSome {groupId sender key : String} {m : Row T} (hm : m ∈ db.admissions)
    (h : m.2.triple = (groupId, sender, key)) :
    ∃ n, existingRow db groupId sender key = some n := by
  cases hrow : existingRow db groupId sender key with
  | some n => exact ⟨n, rfl⟩
  | none => exact absurd h (existingRow_none hrow m hm)

theorem mem_retainedRows {groupId sender k : String} {a : Admission T} :
    a ∈ retainedRows lib db groupId sender k ↔
      ∃ m ∈ db.admissions, m.2 = a ∧ a.origin = (groupId, sender) ∧ Under lib k a.requestKey := by
  unfold retainedRows rowsIn Under Admission.origin
  simp only [List.mem_filter, List.mem_map, beq_iff_eq, Bool.and_eq_true, Prod.mk.injEq]
  constructor
  · rintro ⟨⟨⟨m, hm, rfl⟩, hgroup⟩, hsender, hunder⟩
    exact ⟨m, hm, rfl, ⟨hgroup, hsender⟩, hunder⟩
  · rintro ⟨m, hm, rfl, ⟨hgroup, hsender⟩, hunder⟩
    exact ⟨⟨⟨m, hm, rfl⟩, hgroup⟩, hsender, hunder⟩

theorem insertAdmission_ok {id : String} {row : Admission T}
    (h : insertAdmission db id row = .ok db') : id ∉ db.admissions.map (·.1) ∧
      (∀ m ∈ db.admissions, m.2.triple ≠ row.triple) ∧
      db'.admissions = db.admissions ++ [(id, row)] := by
  unfold insertAdmission at h
  split at h
  · cases h
  · next hnew =>
      simp only [Bool.or_eq_true, not_or, Bool.not_eq_true] at hnew
      obtain ⟨hfresh, hkeys⟩ := hnew
      have hid : id ∉ db.admissions.map (·.1) := by
        rw [← Dict.lookup_eq_none_iff, ← Option.not_isSome_iff_eq_none, Bool.not_eq_true]
        exact hfresh
      refine ⟨hid, fun m hm heq => ?_, ?_⟩
      · rw [List.any_eq_false] at hkeys
        simp only [Admission.triple, Prod.mk.injEq] at heq
        exact hkeys m hm (by simp [heq])
      · obtain ⟨-, rfl⟩ := insertMilestone_ok h
        exact Dict.set_eq_append hid _

theorem cores_append {m : Row T} (h : db'.admissions = db.admissions ++ [m]) :
    cores db' = cores db ++ [(m.1, m.2.core)] := by
  rw [cores, h, List.map_append]
  rfl

/-! ## Before the action -/

variable [Clock T] {now : T}

theorem cores_tombstoneDue {groupId : String} {grace : Nat} (h : NonePastDue db groupId now) :
    cores (tombstoneDue db groupId now grace) = (cores db).map fun m =>
      (m.1, { m.2 with
        body := if m.2.groupId = groupId ∧ Clock.plus m.2.expiresAt grace ≤ now then ""
          else m.2.body }) := by
  unfold cores tombstoneDue Dict.mapValues
  simp only [List.map_map]
  refine List.map_congr_left fun m hm => ?_
  simp only [Function.comp_apply, Admission.core]
  by_cases hdue : m.2.groupId = groupId ∧ Clock.plus m.2.expiresAt grace ≤ now
  · have hstate : m.2.state ≠ .pending := h m hm hdue.1 ((Clock.le_plus _ _).trans hdue.2)
    rw [if_pos hdue]
    by_cases hbody : m.2.body = ""
    · rw [if_neg (fun hall => hall.2.2.1 hbody), hbody]
    · rw [if_pos ⟨hdue.1, hstate, hbody, hdue.2⟩]
  · rw [if_neg hdue, if_neg (fun hall => hdue ⟨hall.1, hall.2.2.2⟩)]

theorem Keyed.tombstoneDue {groupId : String} {grace : Nat} (h : Keyed lib K (cores db))
    (hnone : NonePastDue db groupId now) :
    Keyed lib K (cores (tombstoneDue db groupId now grace)) := by
  rw [cores_tombstoneDue hnone]
  refine h.map_body (fun a =>
    if a.groupId = groupId ∧ Clock.plus a.expiresAt grace ≤ now then "" else a.body) ?_
  intro m hm n hn horigin hagrees
  have hgroup : m.2.groupId = n.2.groupId := (Prod.mk.injEq _ _ _ _ ▸ horigin).1
  simp only [hgroup, hagrees.expiresAt, hagrees.body]

omit [Clock T] in
theorem insertAhrEvent_admissions {row : AhrRow} (h : insertAhrEvent db row = .ok db') :
    db'.admissions = db.admissions := by
  obtain ⟨-, rfl⟩ := insertAhrEvent_ok h
  rfl

theorem append_admissions {env : Surroundings} {log : AhrLog} {messageId event : String}
    {actor : Json} {target : Option Target} {record : Option ByteArray}
    {fields : List (String × Json)}
    (h : append lib env db log messageId event actor now target record fields = .ok db') :
    db'.admissions = db.admissions := by
  unfold append at h
  obtain ⟨ev, _, h⟩ := Except.bind_eq_ok.mp h
  obtain ⟨⟨log', errs⟩, _, h⟩ := Except.bind_eq_ok.mp h
  cases errs with
  | cons e errs => cases h
  | nil =>
      obtain ⟨row, _, h⟩ := Except.bind_eq_ok.mp h
      obtain ⟨inserted, hins, h⟩ := Except.bind_eq_ok.mp h
      cases h
      show inserted.admissions = _
      exact insertAhrEvent_admissions hins

theorem sweepExpired_admissions {env : Surroundings} {groupId : String}
    (h : sweepExpired lib env db groupId now = .ok db') : db'.admissions = db.admissions := by
  refine Except.foldlM_invariant (I := fun s => s.admissions = db.admissions) ?_ rfl h
  intro mid entry mid' _ hmid hone
  simp only [sweepOne, Except.bind_eq_ok, Except.pure_eq_ok, ite_eq_iff] at hone
  obtain ⟨_, _, _, _, ⟨_, rfl⟩ | ⟨_, _, _, _, _, _, _, ⟨_, hone⟩ | ⟨_, rfl⟩⟩⟩ := hone
  · exact hmid
  · exact (append_admissions hone).trans hmid
  · exact hmid

omit [Clock T] in
theorem closeGroup_admissions (db : Db T) (groupId : String) (closed : Bool) :
    (closeGroup db groupId closed).admissions = db.admissions := by
  unfold closeGroup
  split
  · rfl
  · rfl

theorem tombstoneDue_ids (db : Db T) (groupId : String) (grace : Nat) :
    (tombstoneDue db groupId now grace).admissions.map (·.1) = db.admissions.map (·.1) := by
  unfold tombstoneDue Dict.mapValues
  rw [List.map_map]
  rfl

omit [Clock T] in
theorem SameRows.ids (h : SameRows db db') :
    db'.admissions.map (·.1) = db.admissions.map (·.1) := by
  have := congrArg (List.map (·.1)) h
  simpa only [List.map_map, Function.comp_def] using this

theorem prepare_keyed {call : Call T} {closed : Bool} (hk : Keyed lib K (cores db))
    (h : prepare lib db call = .ok (db', now, closed)) :
    Keyed lib K (cores db') ∧ db'.admissions.map (·.1) = db.admissions.map (·.1) := by
  simp only [prepare, Except.bind_eq_ok, Except.pure_eq_ok, Prod.mk.injEq] at h
  obtain ⟨born, hborn, swept, hswept, group, _, rfl, rfl, _⟩ := h
  have hbefore := ((sameRows_ensureGroup hborn).trans (.of_eq rfl)).trans (sameRows_expireDue
    (touchGroupTime born call.snapshot.binding.groupId (effectiveTime db
      call.snapshot.binding.groupId call.wall)) call.snapshot.binding.groupId (effectiveTime db
      call.snapshot.binding.groupId call.wall)
      ((call.snapshot.recipients.filter (·.terminal)).map (·.memberId)))
  have hadmissions := sweepExpired_admissions hswept
  have hnone : NonePastDue swept call.snapshot.binding.groupId
      (effectiveTime db call.snapshot.binding.groupId call.wall) := by
    have := nonePastDue_expireDue
      (touchGroupTime born call.snapshot.binding.groupId (effectiveTime db
        call.snapshot.binding.groupId call.wall)) call.snapshot.binding.groupId
      (effectiveTime db call.snapshot.binding.groupId call.wall)
      ((call.snapshot.recipients.filter (·.terminal)).map (·.memberId))
    unfold NonePastDue at this ⊢
    rwa [hadmissions]
  have hswept' := hbefore.trans (.of_eq hadmissions)
  have hcores : cores swept = cores db := hswept'
  have hclosed := closeGroup_admissions (tombstoneDue swept call.snapshot.binding.groupId
    (effectiveTime db call.snapshot.binding.groupId call.wall)
    call.config.retryGraceSeconds.val) call.snapshot.binding.groupId call.snapshot.allTerminal
  refine ⟨?_, ?_⟩
  · have hrows : Keyed lib K (cores swept) := by
      rw [hcores]
      exact hk
    have hdropped : Keyed lib K (cores (tombstoneDue swept call.snapshot.binding.groupId
        (effectiveTime db call.snapshot.binding.groupId call.wall)
        call.config.retryGraceSeconds.val)) := hrows.tombstoneDue hnone
    unfold cores at hdropped ⊢
    rwa [hclosed]
  · rw [hclosed, tombstoneDue_ids]
    exact hswept'.ids

/-! ## An admission -/

variable {env : Surroundings} {snapshot : CallerSnapshot} {e : Envelope} {ttl : Nat} {live : Bool}
variable {row : Row T}

omit [Clock T] in
theorem validate_key {u : Unit} (h : e.validate = .ok u) :
    (e.derivedKey = true → isShardKey e.requestKey = true) ∧
      (e.derivedKey = false → hasControlCharacters e.requestKey = false) := by
  simp only [Envelope.validate, Except.bind_eq_ok, Except.pure_eq_ok, Except.throw_ne_ok,
    ite_eq_iff, false_and, and_false, exists_false, false_or] at h
  obtain ⟨-, -, -, -, ⟨hderived, hshard, -⟩ | ⟨hderived, hplain, -⟩⟩ := h
  · refine ⟨fun _ => by simpa using hshard, fun hfalse => ?_⟩
    rw [hderived] at hfalse
    cases hfalse
  · exact ⟨fun htrue => absurd htrue hderived, fun _ => by simpa using hplain⟩

theorem admitMessage_cases
    (h : admitMessage lib env db snapshot e now ttl live = .ok (db', row)) :
    e.validate = .ok () ∧
    ((db' = db ∧ existingRow db snapshot.binding.groupId snapshot.binding.memberId e.requestKey =
        some row ∧ row.2.canonicalSha256 = e.canonicalSha256 lib) ∨
      (existingRow db snapshot.binding.groupId snapshot.binding.memberId e.requestKey = none ∧
        checkAdmission lib db snapshot e now live = .ok () ∧
        insertAdmission db row.1 row.2 = .ok db' ∧
        row.2 = e.row lib snapshot.binding env.traceparent now ttl)) := by
  unfold admitMessage at h
  obtain ⟨⟨⟩, hvalid, h⟩ := Except.bind_eq_ok.mp h
  refine ⟨hvalid, ?_⟩
  simp only at h
  split at h
  · next existing hexisting =>
      split at h
      · next hdigest =>
          cases h
          exact .inl ⟨rfl, hexisting, hdigest.symm⟩
      · cases h
  · next hnone =>
      obtain ⟨⟨⟩, hcheck, h⟩ := Except.bind_eq_ok.mp h
      obtain ⟨inserted, hins, h⟩ := Except.bind_eq_ok.mp h
      cases h
      exact .inr ⟨hnone, hcheck, hins, rfl⟩

theorem checkAdmission_retained (h : checkAdmission lib db snapshot e now live = .ok ())
    (hplain : isShardKey e.requestKey = false) :
    retainedRows lib db snapshot.binding.groupId snapshot.binding.memberId e.requestKey = [] := by
  unfold checkAdmission at h
  simp only [hplain, Bool.not_false, Bool.true_and] at h
  split at h
  · cases h
  · next hempty => simpa using hempty

theorem admit_direct (hk : Keyed lib K (cores db)) (hderived : e.derivedKey = false)
    (hkey : e.requestKey ∈ K)
    (h : admitMessage lib env db snapshot e now ttl live = .ok (db', row)) :
    Keyed lib K (cores db') ∧
      ((row ∈ db.admissions ∧ row.2.requestKey = e.requestKey ∧
          row.2.canonicalSha256 = e.canonicalSha256 lib) ∨
        (row.1 ∉ db.admissions.map (·.1) ∧ row ∈ db'.admissions)) := by
  obtain ⟨hvalid, ⟨rfl, hexisting, hdigest⟩ | ⟨hnone, hcheck, hins, hrow⟩⟩ := admitMessage_cases h
  · obtain ⟨hmem, htriple⟩ := existingRow_some hexisting
    simp only [Admission.triple, Prod.mk.injEq] at htriple
    exact ⟨hk, .inl ⟨hmem, htriple.2.2, hdigest⟩⟩
  · have hplain := (validate_key hvalid).2 hderived
    have hnotShard : isShardKey e.requestKey = false := by
      by_contra hshard
      have := plain_shard_key (Bool.eq_true_of_not_eq_false hshard)
      rw [hplain] at this
      cases this
    have hempty := checkAdmission_retained hcheck hnotShard
    obtain ⟨hfresh, hunique, hadmissions⟩ := insertAdmission_ok hins
    have hrowKey : row.2.core.requestKey = e.requestKey := by rw [hrow]; rfl
    have horigin : row.2.core.origin = (snapshot.binding.groupId, snapshot.binding.memberId) := by
      rw [hrow]
      rfl
    have hnotUnder : ∀ k, ¬ Under lib k row.2.core.requestKey := by
      intro k
      rw [hrowKey]
      exact not_under_of_plain hplain
    have hadded : row ∈ db'.admissions := by
      rw [hadmissions]
      exact List.mem_append_right _ List.mem_cons_self
    refine ⟨?_, .inr ⟨hfresh, hadded⟩⟩
    rw [cores_append hadmissions]
    refine hk.append (fun m hm => ?_) (.inl (hrowKey ▸ ⟨hplain, hkey⟩)) (fun m hm k _ _ hnew => ?_)
      (fun m hm _ _ => hnotUnder _) (fun _ m hm hsame hunder => ?_)
    · obtain ⟨n, hn, -, hcore⟩ := of_mem_cores hm
      rw [← hcore]
      exact hunique n hn
    · exact absurd hnew (hnotUnder k)
    · obtain ⟨n, hn, -, hcore⟩ := of_mem_cores hm
      have hmem : n.2 ∈ retainedRows lib db snapshot.binding.groupId snapshot.binding.memberId
          e.requestKey := by
        refine mem_retainedRows.mpr ⟨n, hn, rfl, ?_, ?_⟩
        · rw [← hcore] at hsame
          exact hsame.trans horigin
        · rw [← hcore, hrowKey] at hunder
          exact hunder
      rw [hempty] at hmem
      cases hmem

omit [Clock T] in
theorem shardKey_congr {k k' scope scope' member : String}
    (hk : textDigest lib k 32 = textDigest lib k' 32)
    (hs : textDigest lib scope 16 = textDigest lib scope' 16) :
    shardKey lib k scope member = shardKey lib k' scope' member := by
  rw [shardKey, shardKey, shardPrefix, shardPrefix, hk, hs]

omit [Clock T] in
theorem under_congr {k k' requestKey : String} (hk : textDigest lib k 32 = textDigest lib k' 32) :
    Under lib k requestKey ↔ Under lib k' requestKey := by
  rw [Under, Under, shardPrefix, shardPrefix, hk]

/-- A shard finds the row of its key or adds one, if the rows under the caller's key agree with it
and no direct row has that key. -/
theorem admit_shard (hlen : FullDigest lib) (hdiffer : DigestsDiffer lib K) {k scope : String}
    (hk : Keyed lib K (cores db)) (hderived : e.derivedKey = true) (hkK : k ∈ K)
    (hkey : e.requestKey = shardKey lib k scope e.recipientMemberId)
    (hdirect : ∀ m ∈ db.admissions,
      m.2.triple ≠ (snapshot.binding.groupId, snapshot.binding.memberId, k))
    (hagree : ∀ m ∈ db.admissions,
      m.2.origin = (snapshot.binding.groupId, snapshot.binding.memberId) →
      Under lib k m.2.requestKey → Agrees m.2 (e.row lib snapshot.binding env.traceparent now ttl))
    (h : admitMessage lib env db snapshot e now ttl live = .ok (db', row)) :
    Keyed lib K (cores db') ∧
      ((db' = db ∧ row ∈ db.admissions ∧ row.2.triple = (snapshot.binding.groupId,
          snapshot.binding.memberId, e.requestKey)) ∨
        (row.1 ∉ db.admissions.map (·.1) ∧ db'.admissions = db.admissions ++ [row] ∧
          isShardKey e.requestKey = true ∧
          row.2 = e.row lib snapshot.binding env.traceparent now ttl)) := by
  obtain ⟨hvalid, ⟨rfl, hexisting, -⟩ | ⟨-, -, hins, hrow⟩⟩ := admitMessage_cases h
  · obtain ⟨hmem, htriple⟩ := existingRow_some hexisting
    exact ⟨hk, .inl ⟨rfl, hmem, htriple⟩⟩
  · have hshard := (validate_key hvalid).1 hderived
    obtain ⟨hfresh, hunique, hadmissions⟩ := insertAdmission_ok hins
    have hrowKey : row.2.core.requestKey = shardKey lib k scope e.recipientMemberId := by
      rw [hrow]
      exact hkey
    have horigin : row.2.core.origin = (snapshot.binding.groupId, snapshot.binding.memberId) := by
      rw [hrow]
      rfl
    have hunder : ∀ k', Under lib k' row.2.core.requestKey →
        textDigest lib k' 32 = textDigest lib k 32 := by
      intro k' hunder
      rwa [hrowKey, under_shardKey hlen] at hunder
    refine ⟨?_, .inr ⟨hfresh, hadmissions, hshard, hrow⟩⟩
    rw [cores_append hadmissions]
    refine hk.append (fun m hm => ?_) (.inr ⟨?_, k, scope, ?_⟩) (fun m hm k' hsame hold hnew => ?_)
      (fun m hm hsame hplain hnew => ?_) (fun hplain m hm _ _ => ?_)
    · obtain ⟨n, hn, -, hcore⟩ := of_mem_cores hm
      rw [← hcore]
      exact hunique n hn
    · rw [hrowKey, ← hkey]
      exact hshard
    · rw [hrowKey, hrow]
      rfl
    · obtain ⟨n, hn, -, hcore⟩ := of_mem_cores hm
      rw [← hcore] at hsame hold ⊢
      have := hagree n hn (hsame.trans horigin) ((under_congr (hunder k' hnew)).mp hold)
      rw [← hrow] at this
      exact ⟨this.scope, this.body, this.kind, this.deliveryClass, this.expiresAt⟩
    · obtain ⟨n, hn, -, hcore⟩ := of_mem_cores hm
      have hmK : m.2.requestKey ∈ K := by
        rcases hk.shaped m hm with ⟨-, hmK⟩ | ⟨hshardKey, -⟩
        · exact hmK
        · rw [plain_shard_key hshardKey] at hplain
          cases hplain
      rw [← hcore] at hsame hnew hmK
      have hsame' := hsame.trans horigin
      refine hdirect n hn ?_
      rw [Admission.origin, Prod.mk.injEq] at hsame'
      have hk' : n.2.requestKey = k := hdiffer hmK hkK (hunder _ hnew)
      show (n.2.groupId, n.2.senderMemberId, n.2.requestKey) = _
      rw [hk', ← hsame'.1, ← hsame'.2]
      rfl
    · rw [hrowKey, shardKey_control] at hplain
      cases hplain

/-! ## A notify -/

variable {scope : String} {notice : Notice} {limit : Nat} {rows : List (Row T)}

/-- A row that a notify under this key and scope wrote. -/
structure OfNotice (lib : Stdlib) (scope : String) (notice : Notice) (expiresAt : T)
    (a : Admission T) : Prop where
  scope : scopeDigestOf a.requestKey = some (textDigest lib scope 16)
  body : a.body = notice.body
  kind : a.kind = notice.kind
  deliveryClass : a.deliveryClass = notice.deliveryClass
  expiresAt : a.expiresAt = expiresAt

/-- A first fan-out, while it runs: every row under the key is one of its own. -/
structure FanningOut (lib : Stdlib) (K : Set String) (snapshot : CallerSnapshot) (scope : String)
    (notice : Notice) (expiresAt : T) (db : Db T) (acc : Db T × List (Row T)) : Prop where
  keyed : Keyed lib K (cores acc.1)
  kept : db.admissions.map (·.1) ⊆ acc.1.admissions.map (·.1)
  direct : ∀ m ∈ acc.1.admissions,
    m.2.triple ≠ (snapshot.binding.groupId, snapshot.binding.memberId, notice.requestKey)
  own : ∀ m ∈ acc.1.admissions,
    m.2.origin = (snapshot.binding.groupId, snapshot.binding.memberId) →
    Under lib notice.requestKey m.2.requestKey →
      m.1 ∉ db.admissions.map (·.1) ∧ OfNotice lib scope notice expiresAt m.2
  receipts : ∀ r ∈ acc.2, r.1 ∉ db.admissions.map (·.1) ∧ r ∈ acc.1.admissions

/-- The envelope of a shard. -/
def Notice.envelope (lib : Stdlib) (notice : Notice) (scope member : String) : Envelope where
  recipientMemberId := member
  requestKey := shardKey lib notice.requestKey scope member
  body := notice.body
  kind := notice.kind
  deliveryClass := notice.deliveryClass
  derivedKey := true

theorem FanningOut.admit (hlen : FullDigest lib) (hdiffer : DigestsDiffer lib K)
    (hplain : hasControlCharacters notice.requestKey = false) (hkK : notice.requestKey ∈ K)
    {mid : Db T}
    {acc : Db T × List (Row T)} {member : String}
    (hf : FanningOut lib K snapshot scope notice (Clock.plus now ttl) db acc)
    (h : admitMessage lib env acc.1 snapshot (notice.envelope lib scope member) now ttl live =
      .ok (mid, row)) :
    FanningOut lib K snapshot scope notice (Clock.plus now ttl) db (mid, acc.2 ++ [row]) := by
  have hdigest : isShardKey (shardKey lib notice.requestKey scope member) = true →
      scopeDigestOf (shardKey lib notice.requestKey scope member) =
        some (textDigest lib scope 16) := shardParts_shardKey hlen
  have hvalid := (validate_key (admitMessage_cases h).1).1 rfl
  have hagree : ∀ m ∈ acc.1.admissions,
      m.2.origin = (snapshot.binding.groupId, snapshot.binding.memberId) →
      Under lib notice.requestKey m.2.requestKey → Agrees m.2
        ((notice.envelope lib scope member).row lib snapshot.binding env.traceparent now ttl) := by
    intro m hm horigin hunder
    obtain ⟨-, hs, hb, hk, hd, he⟩ := hf.own m hm horigin hunder
    exact ⟨hs.trans (hdigest hvalid).symm, hb, hk, hd, he⟩
  obtain ⟨hkeyed, ⟨rfl, hmem, htriple⟩ | ⟨hfresh, hadmissions, -, hrow⟩⟩ :=
    admit_shard hlen hdiffer hf.keyed rfl hkK rfl hf.direct hagree h
  · -- a member listed twice gets the receipt of its first row
    refine ⟨hf.keyed, hf.kept, hf.direct, hf.own, fun r hr => ?_⟩
    rcases List.mem_append.mp hr with hr | hr
    · exact hf.receipts r hr
    · rw [List.mem_singleton.mp hr]
      simp only [Admission.triple, Prod.mk.injEq] at htriple
      have hunder : Under lib notice.requestKey row.2.requestKey := by
        rw [htriple.2.2]
        exact (under_shardKey hlen).mpr rfl
      refine ⟨(hf.own row hmem ?_ hunder).1, hmem⟩
      rw [Admission.origin, htriple.1, htriple.2.1]
  · have hnew : row.1 ∉ db.admissions.map (·.1) := fun hold => hfresh (hf.kept hold)
    have hkey : row.2.requestKey = shardKey lib notice.requestKey scope member := by
      rw [hrow]
      rfl
    refine ⟨hkeyed, ?_, ?_, ?_, ?_⟩
    · show _ ⊆ mid.admissions.map (·.1)
      rw [hadmissions, List.map_append]
      exact fun i hi => List.mem_append_left _ (hf.kept hi)
    · intro m hm
      rw [hadmissions] at hm
      rcases List.mem_append.mp hm with hm | hm
      · exact hf.direct m hm
      · rw [List.mem_singleton.mp hm]
        intro heq
        simp only [Admission.triple, Prod.mk.injEq] at heq
        have hcontrol := @shardKey_control lib notice.requestKey scope member
        rw [← hkey, heq.2.2, hplain] at hcontrol
        cases hcontrol
    · intro m hm horigin hunder
      rw [hadmissions] at hm
      rcases List.mem_append.mp hm with hm | hm
      · exact hf.own m hm horigin hunder
      · rw [List.mem_singleton.mp hm]
        refine ⟨hnew, ?_, ?_, ?_, ?_, ?_⟩
        · rw [hkey]
          exact hdigest hvalid
        all_goals rw [hrow]; rfl
    · intro r hr
      show _ ∧ r ∈ mid.admissions
      rw [hadmissions]
      rcases List.mem_append.mp hr with hr | hr
      · exact ⟨(hf.receipts r hr).1, List.mem_append_left _ (hf.receipts r hr).2⟩
      · rw [List.mem_singleton.mp hr]
        exact ⟨hnew, List.mem_append_right _ List.mem_cons_self⟩

/-- A retry of a fan-out, while it runs: it only finds rows, each saying what the call says. -/
structure Retrying (lib : Stdlib) (scope : String) (notice : Notice) (db : Db T)
    (acc : Db T × List (Row T)) : Prop where
  same : acc.1 = db
  receipts : ∀ r ∈ acc.2, r ∈ db.admissions ∧ ∃ member,
    r.2.requestKey = shardKey lib notice.requestKey scope member ∧
    r.2.canonicalSha256 = (notice.envelope lib scope member).canonicalSha256 lib

omit [Clock T] in
theorem retained_existing (hlen : FullDigest lib) (hk : Keyed lib K (cores db))
    {binding : CallerBinding} {k : String}
    (hscope : ∀ a ∈ retainedRows lib db binding.groupId binding.memberId k,
      scopeDigestOf a.requestKey = some (textDigest lib scope 16)) {a : Admission T}
    (ha : a ∈ retainedRows lib db binding.groupId binding.memberId k) :
    a.requestKey = shardKey lib k scope a.recipientMemberId := by
  obtain ⟨m, hm, rfl, -, hunder⟩ := mem_retainedRows.mp ha
  rcases hk.shaped _ (mem_cores hm) with ⟨hplain, -⟩ | ⟨hshard, k', scope', hkey⟩
  · exact absurd hunder (not_under_of_plain hplain)
  · have hkey' : m.2.requestKey = shardKey lib k' scope' m.2.recipientMemberId := hkey
    have hshard' : isShardKey m.2.requestKey = true := hshard
    have hdigest := hscope _ ha
    rw [hkey'] at hunder hdigest hshard'
    rw [shardParts_shardKey hlen hshard', Option.some_inj] at hdigest
    rw [hkey']
    exact shardKey_congr ((under_shardKey hlen).mp hunder).symm hdigest

/-- A notify keeps the invariant; its receipts are all of this call, or all of an earlier one that
said the same under the same scope. -/
theorem notify_keyed (hlen : FullDigest lib) (hdiffer : DigestsDiffer lib K)
    (hk : Keyed lib K (cores db)) (hkK : notice.requestKey ∈ K)
    (h : notify lib env db snapshot scope notice now limit ttl = .ok (db', rows)) :
    Keyed lib K (cores db') ∧
      ((∀ r ∈ rows, r.1 ∉ db.admissions.map (·.1) ∧ r ∈ db'.admissions) ∨
        ∀ r ∈ rows, r ∈ db.admissions ∧ ∃ member,
          r.2.requestKey = shardKey lib notice.requestKey scope member ∧
          r.2.canonicalSha256 = (notice.envelope lib scope member).canonicalSha256 lib) := by
  simp only [notify, Except.bind_eq_ok, Except.pure_eq_ok, Except.throw_ne_ok, ite_eq_iff,
    false_and, and_false, exists_false, false_or] at h
  obtain ⟨hguard, _, _, retained, hretained, reached, hreached, _, rfl⟩ := h
  have hplain : hasControlCharacters notice.requestKey = false := by
    rw [not_or, not_or] at hguard
    simpa using hguard.2.2
  simp only [reconcileRetry, Except.bind_eq_ok, Except.pure_eq_ok, Except.throw_ne_ok, ite_eq_iff,
    false_and, and_false, exists_false, false_or] at hretained
  obtain ⟨hdirect, hscopes, -, rfl⟩ := hretained
  have hdirect' : ∀ m ∈ db.admissions, m.2.triple ≠
      (snapshot.binding.groupId, snapshot.binding.memberId, notice.requestKey) := by
    refine existingRow_none ?_
    simpa using hdirect
  have hscopes' : ∀ a ∈ retainedRows lib db snapshot.binding.groupId snapshot.binding.memberId
      notice.requestKey, scopeDigestOf a.requestKey = some (textDigest lib scope 16) := by
    simpa using hscopes
  by_cases hempty : retainedRows lib db snapshot.binding.groupId snapshot.binding.memberId
      notice.requestKey = []
  · have hf : FanningOut lib K snapshot scope notice (Clock.plus now ttl) db (db', rows) := by
      refine Except.foldlM_invariant
        (I := FanningOut lib K snapshot scope notice (Clock.plus now ttl) db) ?_ ?_ hreached
      · intro acc peer acc' _ hacc hstep
        split at hstep
        · next hadmit =>
            cases hstep
            exact hacc.admit hlen hdiffer hplain hkK hadmit
        · split at hstep
          · cases hstep
            exact hacc
          · cases hstep
        · cases hstep
      · refine ⟨hk, List.Subset.refl _, hdirect', fun m hm horigin hunder => ?_, by simp⟩
        have : m.2 ∈ retainedRows lib db snapshot.binding.groupId snapshot.binding.memberId
            notice.requestKey := mem_retainedRows.mpr ⟨m, hm, rfl, horigin, hunder⟩
        rw [hempty] at this
        cases this
    exact ⟨hf.keyed, .inl hf.receipts⟩
  · have hf : Retrying lib scope notice db (db', rows) := by
      refine Except.foldlM_invariant (I := Retrying lib scope notice db) ?_ ⟨rfl, by simp⟩ hreached
      intro acc peer acc' hpeer hacc hstep
      split at hstep
      · next mid found hadmit =>
          cases hstep
          have hmember : peer.memberId ∈ (retainedRows lib db snapshot.binding.groupId
              snapshot.binding.memberId notice.requestKey).map (·.recipientMemberId) := by
            have := (List.mem_filter.mp hpeer).2
            rw [if_neg (by simpa using hempty)] at this
            simpa using this
          obtain ⟨a, ha, hrecipient⟩ := List.mem_map.mp hmember
          have hkey := retained_existing hlen hk hscopes' ha
          obtain ⟨m, hm, rfl, horigin, -⟩ := mem_retainedRows.mp ha
          rw [hrecipient] at hkey
          have htriple : m.2.triple = (snapshot.binding.groupId, snapshot.binding.memberId,
              shardKey lib notice.requestKey scope peer.memberId) := by
            rw [Admission.origin, Prod.mk.injEq] at horigin
            rw [Admission.triple, horigin.1, horigin.2, hkey]
          obtain ⟨n, hn⟩ := existingRow_isSome hm htriple
          rw [hacc.same] at hadmit
          obtain ⟨-, ⟨rfl, hexisting, hdigest⟩ | ⟨hnone, -⟩⟩ := admitMessage_cases hadmit
          · refine ⟨rfl, fun r hr => ?_⟩
            rcases List.mem_append.mp hr with hr | hr
            · exact hacc.receipts r hr
            · rw [List.mem_singleton.mp hr]
              obtain ⟨hmem, hfound⟩ := existingRow_some hexisting
              simp only [Admission.triple, Prod.mk.injEq] at hfound
              exact ⟨hmem, peer.memberId, hfound.2.2, hdigest⟩
          · rw [hn] at hnone
            cases hnone
      · split at hstep
        · cases hstep
          exact hacc
        · cases hstep
      · cases hstep
    have hsame : db' = db := hf.same
    exact ⟨hsame ▸ hk, .inr hf.receipts⟩

/-! ## A call -/

variable {call : Call T}

omit [Clock T] in
theorem SameRows.keyed (h : SameRows db db') (hk : Keyed lib K (cores db)) :
    Keyed lib K (cores db') := by
  have hcores : cores db' = cores db := h
  rw [hcores]
  exact hk

/-- The keys that the sends of a call use. -/
def UsesKeys (K : Set String) (call : Call T) : Prop :=
  ∀ args, call.request = .send args → args.requestKey ∈ K

theorem sendBody_keyed (hlen : FullDigest lib) (hdiffer : DigestsDiffer lib K) {args : SendArgs}
    (hkey : args.requestKey ∈ K) (hk : Keyed lib K (cores db))
    (h : sendBody lib call args db now = .ok db') : Keyed lib K (cores db') := by
  simp only [sendBody, Except.bind_eq_ok, Except.throw_ne_ok, ite_eq_iff,
    false_and, and_false, exists_false, false_or] at h
  obtain ⟨_, _, mid, hmid, record, _, text, _, h⟩ := h
  have hmidKeyed := (sameRows_touch hmid).keyed hk
  split at h
  · unfold sendDirect at h
    obtain ⟨⟨admitted, row⟩, hadmit, h⟩ := Except.bind_eq_ok.mp h
    have hadmitted := (admit_direct hmidKeyed rfl hkey hadmit).1
    cases record with
    | none =>
        cases h
        exact hadmitted
    | some r => exact (sameRows_offer h).keyed hadmitted
  · unfold sendScoped at h
    obtain ⟨parsed, _, h⟩ := Except.bind_eq_ok.mp h
    obtain ⟨⟨notified, rows⟩, hnotify, h⟩ := Except.bind_eq_ok.mp h
    cases h
    exact (notify_keyed hlen hdiffer hmidKeyed hkey hnotify).1

theorem body_keyed (hlen : FullDigest lib) (hdiffer : DigestsDiffer lib K) {closed : Bool}
    (hkeys : UsesKeys K call) (hk : Keyed lib K (cores db))
    (h : body lib call db now closed = .ok db') : Keyed lib K (cores db') := by
  unfold body at h
  split at h
  · next args hargs => exact sendBody_keyed hlen hdiffer (hkeys args hargs) hk h
  · exact (sameRows_inboxBody h).keyed hk
  · exact (sameRows_peersBody h).keyed hk

theorem perform_keyed (hlen : FullDigest lib) (hdiffer : DigestsDiffer lib K)
    (hkeys : UsesKeys K call) (hk : Keyed lib K (cores db)) (h : Performs lib db call db') :
    Keyed lib K (cores db') := by
  unfold Performs perform at h
  split at h
  · next committed refusal htransact =>
      subst h
      unfold transact at htransact
      obtain ⟨⟨mid, now, closed⟩, hprepare, htransact⟩ := Except.bind_eq_ok.mp htransact
      have hmid := (prepare_keyed hk hprepare).1
      simp only at htransact
      split at htransact
      · next hbody =>
          cases htransact
          exact body_keyed hlen hdiffer hkeys hmid hbody
      · obtain ⟨counted, hcount, htransact⟩ := Except.bind_eq_ok.mp htransact
        cases htransact
        exact (sameRows_countRefusal hcount).keyed hmid
      · cases htransact
  · exact h ▸ hk

theorem perform_refused (hk : Keyed lib K (cores db))
    (h : ∀ db', transact lib db call ≠ .ok (db', none)) :
    (perform lib db call).admissions.map (·.1) = db.admissions.map (·.1) := by
  unfold perform
  split
  · next committed refusal htransact =>
      have hwhole := htransact
      unfold transact at htransact
      obtain ⟨⟨mid, now, closed⟩, hprepare, htransact⟩ := Except.bind_eq_ok.mp htransact
      have hids := (prepare_keyed hk hprepare).2
      simp only at htransact
      split at htransact
      · cases htransact
        exact absurd hwhole (h _)
      · obtain ⟨counted, hcount, htransact⟩ := Except.bind_eq_ok.mp htransact
        cases htransact
        exact (sameRows_countRefusal hcount).ids.trans hids
      · cases htransact
  · rfl

theorem run_keyed (hlen : FullDigest lib) (hdiffer : DigestsDiffer lib K) {calls : List (Call T)}
    (hkeys : ∀ call ∈ calls, UsesKeys K call) (hrun : Run (Performs lib) {} calls db) :
    Keyed lib K (cores db) := by
  refine Run.history_invariant (I := fun calls db =>
    (∀ call ∈ calls, UsesKeys K call) → Keyed lib K (cores db)) (fun _ => .nil) ?_ hrun hkeys
  intro calls db call db' _ hk hstep hkeys
  exact perform_keyed hlen hdiffer (hkeys call (by simp))
    (hk fun earlier h => hkeys earlier (List.mem_append_left _ h)) hstep

/-! ## One message -/

/-- The direct rows of a key. -/
def directRows (db : Db T) (groupId sender k : String) : List (Admission T) :=
  (rowsIn db groupId).filter fun a => a.senderMemberId == sender && a.requestKey == k

/-- One direct row, or shards that agree and have each their own recipient. -/
def OneMessage (lib : Stdlib) (db : Db T) (groupId sender k : String) : Prop :=
  ((directRows db groupId sender k).length = 1 ∧ retainedRows lib db groupId sender k = []) ∨
    (directRows db groupId sender k = [] ∧
      ((retainedRows lib db groupId sender k).map (·.recipientMemberId)).Nodup ∧
      ∀ a ∈ retainedRows lib db groupId sender k, (scopeDigestOf a.requestKey).isSome = true ∧
        ∀ b ∈ retainedRows lib db groupId sender k, Agrees a b)

omit [Clock T] in
theorem mem_directRows {groupId sender k : String} {a : Admission T} :
    a ∈ directRows db groupId sender k ↔
      ∃ m ∈ db.admissions, m.2 = a ∧ a.triple = (groupId, sender, k) := by
  unfold directRows rowsIn Admission.triple
  simp only [List.mem_filter, List.mem_map, beq_iff_eq, Bool.and_eq_true, Prod.mk.injEq]
  constructor
  · rintro ⟨⟨⟨m, hm, rfl⟩, hgroup⟩, hsender, hkey⟩
    exact ⟨m, hm, rfl, hgroup, hsender, hkey⟩
  · rintro ⟨m, hm, rfl, hgroup, hsender, hkey⟩
    exact ⟨⟨⟨m, hm, rfl⟩, hgroup⟩, hsender, hkey⟩

omit [Clock T] in
theorem Keyed.triples (hk : Keyed lib K (cores db)) :
    ((db.admissions.map (·.2)).map Admission.triple).Nodup := by
  have := hk.unique
  unfold cores at this
  rw [List.map_map] at this ⊢
  exact this

omit [Clock T] in
theorem directRows_length (hk : Keyed lib K (cores db)) (groupId sender k : String) :
    (directRows db groupId sender k).length ≤ 1 := by
  have hnodup : ((directRows db groupId sender k).map Admission.triple).Nodup :=
    hk.triples.sublist (((List.filter_sublist).trans List.filter_sublist).map _)
  cases hrows : directRows db groupId sender k with
  | nil => simp
  | cons a rest =>
      cases rest with
      | nil => simp
      | cons b rest =>
          have ha : a ∈ directRows db groupId sender k := by simp [hrows]
          have hb : b ∈ directRows db groupId sender k := by simp [hrows]
          obtain ⟨-, -, -, hat⟩ := mem_directRows.mp ha
          obtain ⟨-, -, -, hbt⟩ := mem_directRows.mp hb
          rw [hrows] at hnodup
          simp [hat, hbt] at hnodup

omit [Clock T] in
theorem Keyed.agrees (hk : Keyed lib K (cores db)) {groupId sender k : String}
    {a b : Admission T} (ha : a ∈ retainedRows lib db groupId sender k)
    (hb : b ∈ retainedRows lib db groupId sender k) : Agrees a b := by
  obtain ⟨m, hm, rfl, horigin, hunder⟩ := mem_retainedRows.mp ha
  obtain ⟨n, hn, rfl, horigin', hunder'⟩ := mem_retainedRows.mp hb
  have := hk.uniform _ (mem_cores hm) _ (mem_cores hn) k (horigin.trans horigin'.symm) hunder
    hunder'
  exact ⟨this.scope, this.body, this.kind, this.deliveryClass, this.expiresAt⟩

omit [Clock T] in
theorem Keyed.oneMessage (hlen : FullDigest lib) (hk : Keyed lib K (cores db))
    {groupId sender k : String} (hplain : hasControlCharacters k = false) :
    OneMessage lib db groupId sender k := by
  have hshape : ∀ a ∈ retainedRows lib db groupId sender k, isShardKey a.requestKey = true ∧
      ∃ scope, a.requestKey = shardKey lib k scope a.recipientMemberId := by
    intro a ha
    obtain ⟨m, hm, rfl, -, hunder⟩ := mem_retainedRows.mp ha
    rcases hk.shaped _ (mem_cores hm) with ⟨hdirect, -⟩ | ⟨hshard, k', scope, hkey⟩
    · exact absurd hunder (not_under_of_plain hdirect)
    · have hkey' : m.2.requestKey = shardKey lib k' scope m.2.recipientMemberId := hkey
      refine ⟨hshard, scope, ?_⟩
      rw [hkey'] at hunder ⊢
      exact shardKey_congr ((under_shardKey hlen).mp hunder).symm rfl
  by_cases hdirect : directRows db groupId sender k = []
  · refine .inr ⟨hdirect, ?_, fun a ha => ⟨?_, fun b hb => hk.agrees ha hb⟩⟩
    · have hnodup : ((retainedRows lib db groupId sender k).map Admission.triple).Nodup :=
        hk.triples.sublist (((List.filter_sublist).trans List.filter_sublist).map _)
      refine List.Nodup.map_on (fun a ha b hb hrecipient => ?_) hnodup.of_map
      refine List.inj_on_of_nodup_map hnodup ha hb ?_
      obtain ⟨hshardA, scopeA, hkeyA⟩ := hshape a ha
      obtain ⟨hshardB, scopeB, hkeyB⟩ := hshape b hb
      have hscopes := (hk.agrees ha hb).scope
      have hkeys : a.requestKey = b.requestKey := by
        rw [hkeyA] at hscopes hshardA ⊢
        rw [hkeyB] at hscopes hshardB ⊢
        rw [shardParts_shardKey hlen hshardA, shardParts_shardKey hlen hshardB,
          Option.some_inj] at hscopes
        rw [hrecipient]
        exact shardKey_congr rfl hscopes
      obtain ⟨-, -, -, horiginA, -⟩ := mem_retainedRows.mp ha
      obtain ⟨-, -, -, horiginB, -⟩ := mem_retainedRows.mp hb
      rw [Admission.origin, Prod.mk.injEq] at horiginA horiginB
      rw [Admission.triple, Admission.triple, horiginA.1, horiginA.2, horiginB.1, horiginB.2, hkeys]
    · unfold scopeDigestOf
      rw [Option.isSome_map]
      exact (hshape a ha).1
  · obtain ⟨a, ha⟩ := List.exists_mem_of_ne_nil _ hdirect
    refine .inl ⟨?_, ?_⟩
    · have hpos := List.length_pos_of_mem ha
      have hle := directRows_length hk groupId sender k
      omega
    · by_contra hshards
      obtain ⟨b, hb⟩ := List.exists_mem_of_ne_nil _ hshards
      obtain ⟨m, hm, rfl, htriple⟩ := mem_directRows.mp ha
      obtain ⟨n, hn, rfl, horigin, hunder⟩ := mem_retainedRows.mp hb
      simp only [Admission.triple, Prod.mk.injEq] at htriple
      refine hk.exclusive _ (mem_cores hm) _ (mem_cores hn) k ?_ hplain htriple.2.2 hunder
      show m.2.origin = n.2.origin
      rw [horigin, Admission.origin, htriple.1, htriple.2.1]

/-- The store on which a call's send decides: prepared, and the caller's endpoint renewed. -/
def SendsOn (lib : Stdlib) (call : Call T) (db : Db T) (now : T) (db' : Db T) : Prop :=
  ∃ mid closed, prepare lib db call = .ok (mid, now, closed) ∧
    (touch mid call.memory call.snapshot.binding now call.config.leaseTtlSeconds.val true).2 =
      .ok db'

end

/-- The sample library with the digests of the key and of the envelope. -/
def keyDigests : Stdlib :=
  { sampleLib with
    sha256 := fun raw =>
      if raw = "k".toUTF8 then "8254c329a92850f6d539dd376f4816ee2764517da5e0235514af433164480d7a"
      else "65d6d403e39f99cd88bb422ed7537e215f72bbb0e273e5a8a563b96d4ca8f033" }

def sampleDirect : Call Nat := sampleCall
  (.send { recipientMemberId := some "bob", requestKey := "k", body := "hello", kind := "status" })
  .empty

theorem keyDigests_full : FullDigest keyDigests := by
  intro raw
  unfold keyDigests
  dsimp only
  split
  · decide
  · decide

end TrwMcp.Comms
