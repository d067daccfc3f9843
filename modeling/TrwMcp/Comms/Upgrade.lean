import TrwMcp.Comms.Verify
import TrwMcp.Comms.PagingRuns

/-!
# The mailbox upgrade

`applyChain` takes the rows of a mailbox of version 3 to 6 to version 7. A row of version 3 gets an
expiry, a delivery count, a last preparer and the digest of its payload (`applyV4`); every later
step only adds tables and columns. The rows are valid at version 7 if they were at their own.
-/

namespace TrwMcp.Comms

open Handoff Lib

/-! ## The chain -/

section

variable {T : Type}

/-- A mailbox of version 4, 5 or 6. What its version does not have is empty. -/
structure Later (T : Type) where
  version : Nat
  db : Db T
  known : 4 ≤ version ∧ version ≤ 6
  noReports : version < 5 → db.handoffReports = []
  noTraces : version < 6 → ∀ row ∈ db.admissions, row.2.traceparent = none
  noEvents : db.ahrEvents = []

/-- A mailbox the upgrade starts from. -/
inductive Upgradable (T : Type) where
  | v3 (m : MailboxV3 T)
  | later (s : Later T)

variable (lib : Stdlib) (sum : T → Nat → Option T) (ttlSeconds : Nat)

/-- `_canonical_sha256` -/
def AdmissionV3.canonicalSha256 (a : AdmissionV3 T) : String :=
  lib.sha256 (canonicalBytes [a.recipientMemberId, a.kind, a.deliveryClass, a.body])

/-- `_apply_v4` on one row: `sum t n` is `t + float(n)` if that is finite. -/
def applyRow (prepared : Bool) (a : AdmissionV3 T) : Admission T where
  groupId := a.groupId
  senderMemberId := a.senderMemberId
  requestKey := a.requestKey
  recipientMemberId := a.recipientMemberId
  kind := a.kind
  deliveryClass := a.deliveryClass
  body := a.body
  recipientIncarnation := if prepared then a.recipientIncarnation else neverPrepared
  admittedAt := a.admittedAt
  state := a.state
  expiresAt := (sum a.admittedAt ttlSeconds).getD a.admittedAt
  deliveryCount := if prepared then 1 else 0
  canonicalSha256 := a.canonicalSha256 lib
  traceparent := none

def applyGroup (g : GroupV3 T) : Group T where
  formationId := g.formationId
  manifestPath := g.manifestPath
  createdAt := g.createdAt
  groupTime := g.groupTime
  closed := g.closed
  groupLimit := g.groupLimit
  bodyLimit := g.bodyLimit
  outstandingLimit := g.outstandingLimit
  rateLimit := g.rateLimit
  charge := g.charge
  bodyBudget := 16777216

def applyEndpoint (e : EndpointV3 T) : EndpointRow T where
  incarnation := e.incarnation
  sessionId := e.sessionId
  runPath := e.runPath
  enrolledAt := e.enrolledAt
  lastSeenAt := e.lastSeenAt
  leaseExpiresAt := e.leaseExpiresAt
  generation := 1
  protocol := 3

/-- Whether a row was prepared for a fetch. -/
def MailboxV3.prepared (m : MailboxV3 T) (messageId : String) : Bool :=
  Dict.has m.milestones (messageId, .fetchPrepared)

/-- `_apply_v4`, and the defaults of the columns it adds. -/
def applyV4 (m : MailboxV3 T) : Db T where
  groups := m.groups.map fun row => (row.1, applyGroup row.2)
  endpoints := m.endpoints.map fun row => (row.1, applyEndpoint row.2)
  admissions := m.admissions.map fun row =>
    (row.1, applyRow lib sum ttlSeconds (m.prepared row.1) row.2)
  milestones := m.milestones
  refusalCounts := m.refusalCounts

/-- `_apply_chain` -/
def applyChain : Upgradable T → Db T
  | .v3 m => applyV4 lib sum ttlSeconds m
  | .later s => s.db

/-- `verify` at the version of the mailbox. -/
def Upgradable.Verified [Clock T] : Upgradable T → Prop
  | .v3 m => RowsOk 3 m
  | .later s => Comms.Verified lib s.version s.db

/-- `Envelope.matches` -/
def Envelope.matches (e : Envelope) (row : Admission T) : Prop :=
  e.canonicalSha256 lib = row.canonicalSha256

/-- The flag of a fetched item: this delivery is not the first. -/
def redelivered (row : Admission T) (incarnation : String) : Prop :=
  1 < row.deliveryCount + if row.recipientIncarnation ≠ incarnation then 1 else 0

end

/-! ## What the rows of version 3 become -/

section

variable {T : Type} {lib : Stdlib} {sum : T → Nat → Option T} {ttlSeconds : Nat}

theorem lookup_map {κ α β : Type} [DecidableEq κ] (f : α → β) (d : Dict κ α) (k : κ) :
    Dict.lookup (d.map fun m => (m.1, f m.2)) k = (Dict.lookup d k).map f := by
  induction d with
  | nil => rfl
  | cons m d ih =>
      obtain ⟨l, v⟩ := m
      rw [List.map_cons, Dict.lookup_cons, Dict.lookup_cons, ih]
      split <;> rfl

/-- The rows of version 3 with the preparers the upgrade leaves. -/
def MailboxV3.relabelled (m : MailboxV3 T) : MailboxV3 T :=
  { m with
    admissions := m.admissions.map fun row => (row.1, { row.2 with
      recipientIncarnation :=
        if m.prepared row.1 then row.2.recipientIncarnation else neverPrepared }) }

theorem applyV4_v3 (m : MailboxV3 T) : (applyV4 lib sum ttlSeconds m).v3 = m.relabelled := by
  simp only [Db.v3, applyV4, MailboxV3.relabelled, List.map_map]
  congr 1
  · exact List.map_id _
  · exact List.map_id _

/-- What identifies a row and says what it is: all but its last preparer. -/
def AdmissionV3.content (a : AdmissionV3 T) : AdmissionV3 T := { a with recipientIncarnation := "" }

theorem relabelled_content (m : MailboxV3 T) :
    m.relabelled.admissions.map (fun row => (row.1, row.2.content)) =
      m.admissions.map fun row => (row.1, row.2.content) := by
  simp only [MailboxV3.relabelled, List.map_map]
  rfl

section

variable (m : MailboxV3 T)

theorem filter_relabelled (p : AdmissionV3 T → Bool) (hp : ∀ a, p a = p a.content) :
    (m.relabelled.admissions.filter fun row => p row.2).map (fun row => row.2.content) =
      (m.admissions.filter fun row => p row.2).map fun row => row.2.content := by
  have hcontent : ∀ rows : List (String × AdmissionV3 T),
      (rows.filter fun row => p row.2).map (fun row => row.2.content) =
        ((rows.map fun row => (row.1, row.2.content)).filter fun row => p row.2).map (·.2) := by
    intro rows
    rw [List.filter_map, List.map_map]
    have hsame : (fun row : String × AdmissionV3 T => p row.2) =
        (fun row => p row.2) ∘ fun row => (row.1, row.2.content) := by
      funext row
      exact hp row.2
    rw [hsame]
    rfl
  rw [hcontent, hcontent, relabelled_content]

theorem length_filter_relabelled (p : AdmissionV3 T → Bool) (hp : ∀ a, p a = p a.content) :
    (m.relabelled.admissions.filter fun row => p row.2).length =
      (m.admissions.filter fun row => p row.2).length := by
  simpa using congrArg List.length (filter_relabelled m p hp)

theorem outstandingOf_relabelled (groupId recipient : String) :
    outstandingOf m.relabelled groupId recipient = outstandingOf m groupId recipient :=
  length_filter_relabelled m (fun a => a.groupId == groupId && a.recipientMemberId == recipient &&
    a.state == .pending) fun _ => rfl

theorem timesOf_relabelled (groupId sender : String) :
    timesOf m.relabelled groupId sender = timesOf m groupId sender := by
  have h := congrArg (List.map (·.admittedAt)) (filter_relabelled m
    (fun a => a.groupId == groupId && a.senderMemberId == sender) fun _ => rfl)
  simp only [List.map_map] at h
  exact h

theorem lookup_relabelled (id : String) :
    (Dict.lookup m.relabelled.admissions id).map AdmissionV3.content =
      (Dict.lookup m.admissions id).map AdmissionV3.content := by
  rw [← lookup_map, ← lookup_map, relabelled_content]

end

theorem neverPrepared_hex : isHexText 32 neverPrepared = true := by decide

variable [Clock T]

theorem RowsOk.relabelled {version : Nat} (hversion : 4 ≤ version) {m : MailboxV3 T}
    (h : RowsOk 3 m) : RowsOk version m.relabelled where
  groups := h.groups
  endpoints := h.endpoints
  append := by
    rw [MailboxV3.relabelled, List.length_map]
    exact h.append
  admissions := by
    intro row hrow
    obtain ⟨old, hold, rfl⟩ := List.mem_map.mp hrow
    obtain ⟨⟨g, hg, hid, hsender, hrecipient, hkind, hclass, hkey, hbody, hmine, hborn, hnow,
      hpending, hrate⟩, _⟩ := h.admissions old hold
    refine ⟨⟨g, hg, hid, hsender, hrecipient, hkind, hclass, hkey, hbody, ?_, hborn, hnow, ?_, ?_⟩,
      fun hearlier => absurd hearlier (Nat.not_lt.mpr hversion)⟩
    · show isHexText 32 (if _ then _ else _) = true
      split
      · exact hmine
      · exact neverPrepared_hex
    · rw [outstandingOf_relabelled]
      exact hpending
    · rw [timesOf_relabelled]
      exact hrate
  charges := by
    intro row hrow
    rw [ChargeOk, length_filter_relabelled m (fun a => a.groupId == row.1) fun _ => rfl]
    exact h.charges row hrow
  milestones := by
    intro row hrow
    obtain ⟨a, ha, g, hg, hknown, hadmitted, hnow⟩ := h.milestones row hrow
    have hlookup := lookup_relabelled m row.1.1
    rw [Option.mem_def.mp ha, Option.map_some, Option.map_eq_some_iff] at hlookup
    obtain ⟨b, hb, hsame⟩ := hlookup
    have hgroup : b.content.groupId = a.content.groupId := by rw [hsame]
    have htime : b.content.admittedAt = a.content.admittedAt := by rw [hsame]
    change b.groupId = a.groupId at hgroup
    change b.admittedAt = a.admittedAt at htime
    exact ⟨b, hb, g, by rw [hgroup]; exact hg, .inr (hknown.resolve_left (by decide)),
      by rw [htime]; exact hadmitted, hnow⟩
  facts := by
    intro row hrow
    obtain ⟨old, hold, rfl⟩ := List.mem_map.mp hrow
    exact h.facts old hold
  refusals := h.refusals

theorem RowsOk.no_handoff {version : Nat} {m : MailboxV3 T} (h : RowsOk version m)
    (hversion : version < 5) : ∀ row ∈ m.milestones,
      row.1.2 ∉ [Fact.accepted, .reported, .completed] := by
  intro row hrow
  obtain ⟨_, _, _, _, hknown, _⟩ := h.milestones row hrow
  exact hknown.resolve_left (Nat.not_le.mpr hversion)

theorem handoffsOk_of_none {db : Db T} (hreports : db.handoffReports = [])
    (hfacts : ∀ row ∈ db.milestones, row.1.2 ∉ [Fact.accepted, .reported, .completed]) :
    HandoffsOk lib db where
  requests := fun row hrow hfact => absurd hfact (hfacts row hrow)
  chained := by
    intro row hrow pair hpair hfact
    refine absurd ?_ (hfacts row hrow)
    rw [hfact]
    simp only [handoffChain, List.mem_cons, List.not_mem_nil, or_false] at hpair
    rcases hpair with rfl | rfl | rfl <;> decide
  reports := by simp [hreports]
  paired := fun row hrow hfact => absurd (by simp [hfact]) (hfacts row hrow)

theorem verified_applyV4 (hdigest : HexDigest lib)
    (hsum : ∀ t n u, sum t n = some u → t ≤ u) {m : MailboxV3 T} (h : RowsOk 3 m) :
    Verified lib 7 (applyV4 lib sum ttlSeconds m) where
  rows := by
    rw [applyV4_v3]
    exact h.relabelled (by decide)
  columns := {
    budgets := by
      intro row hrow
      obtain ⟨old, _, rfl⟩ := List.mem_map.mp hrow
      exact ⟨(by decide : 65536 ≤ 16777216), le_rfl⟩
    endpoints := by
      intro row hrow
      obtain ⟨old, _, rfl⟩ := List.mem_map.mp hrow
      exact ⟨⟨le_rfl, (by decide : 1 ≤ maxCounter)⟩, .inl rfl⟩
    admissions := by
      intro row hrow
      obtain ⟨old, _, rfl⟩ := List.mem_map.mp hrow
      refine ⟨?_, ?_, hdigest _⟩
      · show old.2.admittedAt ≤ (sum old.2.admittedAt ttlSeconds).getD old.2.admittedAt
        cases hnext : sum old.2.admittedAt ttlSeconds with
        | none => exact le_rfl
        | some u => exact hsum _ _ _ hnext
      · show (if _ then 1 else 0) ≤ maxCounter
        split <;> decide }
  handoffs := fun _ => handoffsOk_of_none rfl (h.no_handoff (by decide))
  traces := by
    intro _ row hrow carrier hcarrier
    obtain ⟨old, _, rfl⟩ := List.mem_map.mp hrow
    cases hcarrier

theorem Later.verified (s : Later T) (h : Verified lib s.version s.db) : Verified lib 7 s.db where
  rows := {
    h.rows with
    admissions := fun row hrow =>
      ⟨(h.rows.admissions row hrow).1, fun hversion => absurd hversion (by decide)⟩
    milestones := by
      intro row hrow
      obtain ⟨a, ha, g, hg, _, htimes⟩ := h.rows.milestones row hrow
      exact ⟨a, ha, g, hg, .inl (by decide), htimes⟩ }
  columns := h.columns
  handoffs := by
    intro _
    by_cases hversion : 5 ≤ s.version
    · exact h.handoffs hversion
    · exact handoffsOk_of_none (s.noReports (by omega)) (h.rows.no_handoff (by omega))
  traces := by
    intro _
    by_cases hversion : 6 ≤ s.version
    · exact h.traces hversion
    · intro row hrow carrier hcarrier
      rw [s.noTraces (by omega) row hrow] at hcarrier
      cases hcarrier

/-! ## What the upgrade keeps -/

/-- Nothing but the last preparer of a row is another. -/
structure Keeps (m : MailboxV3 T) (db : Db T) : Prop where
  groups : db.v3.groups = m.groups
  endpoints : db.v3.endpoints = m.endpoints
  content : db.v3.admissions.map (fun row => (row.1, row.2.content)) =
    m.admissions.map fun row => (row.1, row.2.content)
  milestones : db.milestones = m.milestones
  refusals : db.refusalCounts = m.refusalCounts

/-- An exact resend of a retained message is recognised. -/
def ResendsMatch (lib : Stdlib) (db : Db T) : Prop :=
  ∀ row ∈ db.admissions, ∀ e : Envelope, e.recipientMemberId = row.2.recipientMemberId →
    e.kind = row.2.kind → e.deliveryClass = row.2.deliveryClass → e.body = row.2.body →
    e.matches lib row.2

/-- The first fetch by another incarnation is a redelivery of the rows that were prepared. -/
def RedeliversPrepared (db : Db T) : Prop :=
  ∀ row ∈ db.admissions, ∀ incarnation, row.2.recipientIncarnation ≠ incarnation →
    (redelivered row.2 incarnation ↔ Dict.has db.milestones (row.1, .fetchPrepared) = true)

omit [Clock T] in
theorem keeps_applyV4 (m : MailboxV3 T) : Keeps m (applyV4 lib sum ttlSeconds m) where
  groups := by rw [applyV4_v3]; rfl
  endpoints := by rw [applyV4_v3]; rfl
  content := by rw [applyV4_v3, relabelled_content]
  milestones := rfl
  refusals := rfl

omit [Clock T] in
theorem resendsMatch_applyV4 (m : MailboxV3 T) :
    ResendsMatch lib (applyV4 lib sum ttlSeconds m) := by
  intro row hrow e hrecipient hkind hclass hbody
  obtain ⟨old, _, rfl⟩ := List.mem_map.mp hrow
  show e.canonicalSha256 lib = old.2.canonicalSha256 lib
  rw [Envelope.canonicalSha256, hrecipient, hkind, hclass, hbody]
  rfl

omit [Clock T] in
theorem redeliversPrepared_applyV4 (m : MailboxV3 T) :
    RedeliversPrepared (applyV4 lib sum ttlSeconds m) := by
  intro row hrow incarnation hnew
  obtain ⟨old, _, rfl⟩ := List.mem_map.mp hrow
  show 1 < _ + (if _ then 1 else 0) ↔ m.prepared old.1 = true
  rw [if_pos hnew]
  show 1 < (if m.prepared old.1 = true then 1 else 0) + 1 ↔ _
  split <;> simp_all

/-- The upgrade gives a valid mailbox of version 7. From version 3 it keeps every row but the last
preparer, recognises resends and tells redeliveries; from a later version no row changes, so both
are what the stored columns say. -/
theorem upgrade_keeps {T : Type} [Clock T] {lib : Stdlib} {sum : T → Nat → Option T}
    (hdigest : HexDigest lib) (hsum : ∀ t n u, sum t n = some u → t ≤ u) (ttlSeconds : Nat)
    (s : Upgradable T) (h : s.Verified lib) :
    Verified lib 7 (applyChain lib sum ttlSeconds s) ∧
      (∀ m, s = .v3 m → Keeps m (applyChain lib sum ttlSeconds s) ∧
        ResendsMatch lib (applyChain lib sum ttlSeconds s) ∧
        RedeliversPrepared (applyChain lib sum ttlSeconds s)) ∧
      ∀ l, s = .later l → applyChain lib sum ttlSeconds s = l.db := by
  cases s with
  | v3 m =>
      refine ⟨verified_applyV4 hdigest hsum h, fun m' hm => ?_, fun l hl => by cases hl⟩
      obtain rfl := Upgradable.v3.inj hm
      exact ⟨keeps_applyV4 m, resendsMatch_applyV4 m, redeliversPrepared_applyV4 m⟩
  | later l =>
      refine ⟨l.verified h, fun m hm => (by cases hm), fun l' hl => ?_⟩
      obtain rfl := Upgradable.later.inj hl
      rfl

end

/-! ## A prepared row -/

def sampleGroupId : String := "0123456789abcdef0123456789abcdef"

def sampleMessageId : String := "00000000000000000000000000000001"

def sampleRow : AdmissionV3 Nat where
  groupId := sampleGroupId
  senderMemberId := "alice"
  requestKey := "k"
  recipientMemberId := "bob"
  kind := "status"
  deliveryClass := "on_demand"
  body := "hello"
  recipientIncarnation := "0000000000000000000000000000000b"
  admittedAt := 1
  state := .acked

/-- One message, prepared and acknowledged. -/
def sampleV3 : MailboxV3 Nat where
  groups := [(sampleGroupId, ⟨"f-1", "/r/formation.yaml", 0, 3, false, 64, 4096, 8, 8, 1⟩)]
  admissions := [(sampleMessageId, sampleRow)]
  milestones := [((sampleMessageId, .admitted), 1), ((sampleMessageId, .fetchPrepared), 2),
    ((sampleMessageId, .acked), 3)]

/-- Sums of the sample's times are finite. -/
def finiteSum (t n : Nat) : Option Nat := some (t + n)

theorem finiteSum_le (t n u : Nat) (h : finiteSum t n = some u) : t ≤ u :=
  Option.some.inj h ▸ Nat.le_add_right t n

theorem sampleV3_ok : RowsOk 3 sampleV3 where
  groups := by
    intro row hrow
    obtain rfl := List.mem_singleton.mp hrow
    exact ⟨by decide, by decide, by decide, by decide, Nat.zero_le _, by decide, by decide,
      by decide, by decide, by decide⟩
  endpoints := nofun
  append := by decide
  admissions := by
    intro row hrow
    obtain rfl := List.mem_singleton.mp hrow
    exact ⟨⟨_, rfl, by decide, by decide, by decide, by decide, by decide, by decide, by decide,
      by decide, Nat.zero_le _, (by decide : (1 : Nat) ≤ 3), nofun, by decide⟩, nofun⟩
  charges := by
    intro row hrow
    obtain rfl := List.mem_singleton.mp hrow
    rfl
  milestones := by
    intro row hrow
    simp only [sampleV3, List.mem_cons, List.not_mem_nil, or_false] at hrow
    rcases hrow with rfl | rfl | rfl
    · exact ⟨_, rfl, _, rfl, .inr (by decide), (by decide : (1 : Nat) ≤ 1),
        (by decide : (1 : Nat) ≤ 3)⟩
    · exact ⟨_, rfl, _, rfl, .inr (by decide), (by decide : (1 : Nat) ≤ 2),
        (by decide : (2 : Nat) ≤ 3)⟩
    · exact ⟨_, rfl, _, rfl, .inr (by decide), (by decide : (1 : Nat) ≤ 3),
        (by decide : (3 : Nat) ≤ 3)⟩
  facts := by
    intro row hrow
    obtain rfl := List.mem_singleton.mp hrow
    refine ⟨rfl, by decide, by decide, ?_⟩
    intro fact hfact ended hended prepared hprepared
    obtain rfl : 2 = prepared := Option.some.inj hprepared
    simp only [List.mem_cons, List.not_mem_nil, or_false] at hfact
    rcases hfact with rfl | rfl
    · obtain rfl : 3 = ended := Option.some.inj hended
      exact (by decide : (2 : Nat) ≤ 3)
    · cases hended
  refusals := nofun

theorem upgrade_keeps_sample : Verified keyDigests 7 (applyChain keyDigests finiteSum 600
    (.v3 sampleV3)) ∧ ResendsMatch keyDigests (applyV4 keyDigests finiteSum 600 sampleV3) := by
  have h := upgrade_keeps keyDigests_hex finiteSum_le 600 (.v3 sampleV3) sampleV3_ok
  exact ⟨h.1, (h.2.1 sampleV3 rfl).2.1⟩

/-- The sample at version 4, with another digest and no delivery counted. -/
def sampleV4 : Later Nat where
  version := 4
  db := { applyV4 keyDigests finiteSum 600 sampleV3 with
    admissions := (applyV4 keyDigests finiteSum 600 sampleV3).admissions.map fun row =>
      (row.1, { row.2 with
        deliveryCount := 0
        canonicalSha256 :=
          "0000000000000000000000000000000000000000000000000000000000000000" }) }
  known := by decide
  noReports := fun _ => rfl
  noTraces := by
    intro _ row hrow
    obtain ⟨_, hold, rfl⟩ := List.mem_map.mp hrow
    obtain ⟨_, _, rfl⟩ := List.mem_map.mp hold
    rfl
  noEvents := rfl

/-- The verifier of version 4 takes any digest and any delivery count. -/
theorem upgrade_trusts_columns : (Upgradable.later sampleV4).Verified keyDigests ∧
    ¬ResendsMatch keyDigests (applyChain keyDigests finiteSum 600 (.later sampleV4)) ∧
    ¬RedeliversPrepared (applyChain keyDigests finiteSum 600 (.later sampleV4)) := by
  have hkept : Verified keyDigests 7 (applyV4 keyDigests finiteSum 600 sampleV3) :=
    verified_applyV4 keyDigests_hex finiteSum_le sampleV3_ok
  refine ⟨⟨?_, ⟨hkept.columns.budgets, hkept.columns.endpoints, ?_⟩, nofun, nofun⟩, fun h => ?_,
    fun h => ?_⟩
  · exact sampleV3_ok.relabelled (by decide)
  · intro row hrow
    obtain ⟨old, hold, rfl⟩ := List.mem_map.mp hrow
    exact ⟨(hkept.columns.admissions old hold).1, (by decide : 0 ≤ maxCounter),
      (by decide : isHexText 64
        "0000000000000000000000000000000000000000000000000000000000000000" = true)⟩
  · have hmatch := h _ (List.mem_singleton_self _)
      ⟨"bob", "k", "hello", "status", "on_demand", false⟩ rfl rfl rfl rfl
    have hsha : ∀ raw, keyDigests.sha256 raw ≠
        "0000000000000000000000000000000000000000000000000000000000000000" := by
      intro raw
      unfold keyDigests
      dsimp only
      split <;> decide
    exact hsha _ hmatch
  · have hredelivered :
        1 < 0 + if sampleRow.recipientIncarnation ≠ neverPrepared then 1 else 0 :=
      (h _ (List.mem_singleton_self _) neverPrepared (by decide)).mpr rfl
    exact absurd hredelivered (by decide)

end TrwMcp.Comms
