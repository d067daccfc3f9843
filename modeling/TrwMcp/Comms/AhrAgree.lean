import TrwMcp.Comms.Steps

/-!
# The write path and the read path agree

Every mailbox a run of calls reaches is coherent with its own offered records (`Sound`), so
`rebuild` succeeds on every handoff with stored rows and returns the log its writer had. An offer is
the one operation that writes before what it refers to is stored: it is followed under the table of
offered records that it completes.
-/

namespace TrwMcp.Comms

open Handoff Lib

/-- The stored rows are coherent with the records they hold. -/
def Sound {T : Type} (lib : Stdlib) (db : Db T) : Prop := Coherent lib (offeredRecord lib db) db

section

variable {lib : Stdlib} {offered offered' : Offered} {T : Type} {db db' : Db T}

theorem Coherent.mono (hle : offered.Le offered') (hc : Coherent lib offered db) :
    Coherent lib offered' db := by
  refine ⟨fun id doc h => hle id doc (hc.offers id doc h), hc.dense, fun hid hne => ?_⟩
  obtain ⟨log, hwritten, hlog⟩ := hc.logs hid hne
  exact ⟨log, hwritten, hlog.rebuilds.mono hle, hlog.listed, hlog.named⟩

theorem Kept.trans {db₁ db₂ db₃ : Db T} (h : Kept lib offered db₁ db₂)
    (h' : Kept lib offered db₂ db₃) : Kept lib offered db₁ db₃ :=
  ⟨h'.coherent, fun id => (h'.offers id).trans (h.offers id)⟩

theorem Kept.sound (h : Kept lib (offeredRecord lib db) db db') : Sound lib db' := by
  have hsame : offeredRecord lib db' = offeredRecord lib db := by
    funext id
    rw [offeredRecord, h.offers, offeredRecord]
  rw [Sound, hsame]
  exact h.coherent

theorem Kept.of_same (h : SameEvents db db') (hc : Coherent lib offered db) :
    Kept lib offered db db' :=
  ⟨hc.of_same h, fun id => by rw [offeredRow, offeredRow, h.events]⟩

theorem kept_foldlM {α : Type} {f : Db T → α → Mail (Db T)}
    (h : ∀ db x db', Coherent lib offered db → f db x = .ok db' → Kept lib offered db db')
    {xs : List α} (hc : Coherent lib offered db) (hok : xs.foldlM f db = .ok db') :
    Kept lib offered db db' :=
  Except.foldlM_invariant (I := Kept lib offered db)
    (fun _ x _ _ hk hx => hk.trans (h _ x _ hk.coherent hx)) (.refl hc) hok

variable [Clock T] {env : Surroundings} {now : T}

/-! ## Offers -/

/-- What an offer does to one listed predecessor that is offered here. -/
inductive Supersedes (lib : Stdlib) (offered : Offered) (db : Db T) (log : AhrLog) (record : Json)
    (listedDigest : String) : Db T → Prop
  | ended {messageId : String} {db' : Db T} (open_ : log.state = some .offered)
      (wrote : Wrote lib offered db log messageId "superseded" db') :
      Supersedes lib offered db log record listedDigest db'
  | listed (closed : log.state ≠ some .offered)
      (may : mayNotSupersede log record listedDigest = .ok false) :
      Supersedes lib offered db log record listedDigest db

theorem supersede_ok {log : AhrLog} {record : Json} {listedDigest id : String}
    (hl : Listed log.handoff) (hid : record.get? "handoff_id" = some (.str id))
    (hoffered : offered id = .ok (some record))
    (h : supersede lib env db log record listedDigest now = .ok db') :
    Supersedes lib offered db log record listedDigest db' := by
  simp only [supersede, Except.bind_eq_ok, Except.pure_eq_ok, Except.throw_ne_ok, uncaught_eq_ok,
    ite_eq_iff, false_and, and_false, exists_false, false_or] at h
  rcases h with ⟨hopen, d, hd, named, hnamed, own, _, messageId, _, sender, hsender, happ⟩ |
    ⟨hclosed, may, hmay, hyes, rfl⟩
  · rw [Json.item_ok hnamed, Option.some.injEq] at hid
    subst hid
    exact .ended hopen
      (wrote_superseded (hl.distinct.of_get? (Json.item_ok hsender)) hoffered hd happ)
  · obtain rfl : may = false := by simpa using hyes
    exact .listed hclosed hmay

theorem supersedeListed_ok {groupId id : String} {record listed : Json}
    (hc : Coherent lib offered db) (hid : record.get? "handoff_id" = some (.str id))
    (hoffered : offered id = .ok (some record))
    (h : supersedeListed lib env groupId record now db listed = .ok db') :
    ∃ prior digest, listed.get? "handoff_id" = some prior ∧
      (localHandoff db groupId (formatValue lib (some prior)) = false ∧ db' = db ∨
        ∃ log, localHandoff db groupId (formatValue lib (some prior)) = true ∧
          listed.get? "digest" = some digest ∧
          rebuild lib db (formatValue lib (some prior)) = .ok log ∧
          Supersedes lib offered db log record (formatValue lib (some digest)) db') := by
  simp only [supersedeListed, Except.bind_eq_ok, Except.pure_eq_ok, uncaught_eq_ok,
    ite_eq_iff] at h
  obtain ⟨prior, hprior, h⟩ := h
  rcases h with ⟨hlocal, log, hlog, digest, hdigest, h⟩ | ⟨hforeign, rfl⟩
  · refine ⟨prior, digest, Json.item_ok hprior, .inr ⟨log, hlocal, Json.item_ok hdigest, hlog, ?_⟩⟩
    exact supersede_ok (hc.rebuild_eq hlog).2.listed hid hoffered h
  · exact ⟨prior, .null, Json.item_ok hprior, .inl ⟨by simpa using hforeign, rfl⟩⟩

theorem Coherent.supersedeListed {groupId id : String} {record listed : Json}
    (hc : Coherent lib offered db) (hid : record.get? "handoff_id" = some (.str id))
    (hoffered : offered id = .ok (some record))
    (h : supersedeListed lib env groupId record now db listed = .ok db') :
    Kept lib offered db db' := by
  obtain ⟨prior, digest, _, ⟨_, rfl⟩ | ⟨log, _, _, hlog, hsup⟩⟩ :=
    supersedeListed_ok hc hid hoffered h
  · exact .refl hc
  · cases hsup with
    | ended _ hwrote => exact hc.wrote hlog hwrote
    | listed _ _ => exact .refl hc

theorem offer_cases {groupId messageId : String} {record : Json}
    (h : offer lib env db groupId messageId record now = .ok db') :
    ∃ id, record.get? "handoff_id" = some (.str id) ∧
      ((∃ row, offeredRow db id = some row ∧ isSameOffer lib row messageId record = .ok true ∧
          db' = db) ∨
        ∃ listed mid log sender raw, offeredRow db id = none ∧ record.listGet "supersedes" = .ok listed ∧
          listed.foldlM (supersedeListed lib env groupId record now) db = .ok mid ∧
          start lib record = .ok (some log, []) ∧ log.handoff.get? "from" = some sender ∧
          jcs record = .ok raw ∧
          append lib env mid log messageId "offered" sender now none (some raw) [] = .ok db') := by
  simp only [offer, Except.bind_eq_ok, Except.throw_ne_ok, uncaught_eq_ok,
    ite_eq_iff, false_and, and_false, exists_false, false_or] at h
  obtain ⟨_, _, _, id, hid, h⟩ := h
  refine ⟨id, Json.strItem_ok hid, ?_⟩
  split at h
  · next row hrow =>
    simp only [Except.bind_eq_ok, Except.pure_eq_ok, Except.throw_ne_ok, uncaught_eq_ok,
      ite_eq_iff, and_false, or_false] at h
    obtain ⟨same, hsame, hyes, rfl⟩ := h
    exact .inl ⟨row, hrow, by rw [hsame, hyes], rfl⟩
  · next hnone =>
    simp only [Except.bind_eq_ok, uncaught_eq_ok] at h
    obtain ⟨listed, hlisted, mid, hfold, ⟨started, errs⟩, hstart, h⟩ := h
    cases started with
    | none => cases h
    | some log =>
        simp only [Except.bind_eq_ok, uncaught_eq_ok] at h
        obtain ⟨sender, hsender, raw, hraw, happ⟩ := h
        have herrs : errs = [] := by
          simp only [start, Except.bind_eq_ok, Except.pure_eq_ok, ite_eq_iff, Prod.mk.injEq,
            reduceCtorEq, false_and, and_false, false_or] at hstart
          obtain ⟨_, _, _, _, _, _, rfl⟩ := hstart
          rfl
        subst herrs
        exact .inr ⟨listed, mid, log, sender, raw, hnone, hlisted, hfold, hstart,
          Json.item_ok hsender, hraw, happ⟩

theorem Sound.offer {groupId messageId : String} {record : Json} (hs : Sound lib db)
    (hl : Listed record) (h : offer lib env db groupId messageId record now = .ok db') :
    Sound lib db' := by
  obtain ⟨id, hid, ⟨_, _, _, rfl⟩ | ⟨listed, mid, log, sender, raw, hnone, _, hfold, hstart, hsender,
    hraw, happ⟩⟩ := offer_cases h
  · exact hs
  -- the predecessors are ended under the table that has the new record
  let completed : Offered := fun i => if id = i then .ok (some record) else offeredRecord lib db i
  have hle : Offered.Le (offeredRecord lib db) completed := by
    intro i doc hi
    by_cases heq : id = i
    · subst heq
      simp [offeredRecord, hnone, pure, Except.pure] at hi
    · simpa [completed, heq] using hi
  have hcompleted : completed id = .ok (some record) := if_pos rfl
  have hkept := kept_foldlM (fun _ _ _ hc => hc.supersedeListed hid hcompleted) (hs.mono hle) hfold
  obtain ⟨_, d, _, hlog⟩ := start_clean hstart
  have hhandoff : log.handoff = record := by rw [hlog]
  rw [hhandoff] at hsender
  obtain ⟨ev, row, log', ha⟩ := append_ok eventFields_nil (hl.distinct.of_get? hsender) happ
  have hrow : row.handoffId = id := by
    have hnamed := ha.handoffId
    rw [hhandoff, Json.getStr?, hid] at hnamed
    exact (Option.some.inj hnamed).symm
  obtain ⟨hc, hrecords⟩ := hkept.coherent.first hl hraw hstart ha
    (readsBack_noRef ha.built rfl ha.admitted) (by rw [hrow]; exact hcompleted)
  have hsame : offeredRecord lib db' = completed := by
    funext i
    rw [hrecords, hrow]
    by_cases heq : id = i
    · simp [completed, heq]
    · simp [completed, heq, offeredRecord, hkept.offers]
  rw [Sound, hsame]
  exact hc

/-! ## The sweep -/

theorem sweepOne_ok {entry : String × String × String}
    (h : sweepOne lib env now db entry = .ok db') :
    db' = db ∨ ∃ log, rebuild lib db entry.1 = .ok log ∧ log.state = some .offered ∧
      Wrote lib offered db log entry.2.1 "expired" db' := by
  simp only [sweepOne, Except.bind_eq_ok, Except.pure_eq_ok, uncaught_eq_ok, ite_eq_iff] at h
  obtain ⟨due, _, time, _, ⟨_, rfl⟩ | ⟨_, log, hlog, _, _, _, _, h⟩⟩ := h
  · exact .inl rfl
  · rcases h with ⟨⟨hopen, _⟩, happ⟩ | ⟨_, rfl⟩
    · exact .inr ⟨log, hlog, hopen, wrote_noRef eventFields_nil rfl storePrincipal_distinct happ⟩
    · exact .inl rfl

theorem Coherent.sweepOne {entry : String × String × String} (hc : Coherent lib offered db)
    (h : sweepOne lib env now db entry = .ok db') : Kept lib offered db db' := by
  obtain rfl | ⟨log, hlog, _, hwrote⟩ := sweepOne_ok h
  · exact .refl hc
  · exact hc.wrote hlog hwrote

theorem Sound.prepared {call : Call T} (hs : Sound lib db) (h : Prepared lib call db now db') :
    Sound lib db' := by
  obtain ⟨mid, swept, hbefore, hsweep, hafter⟩ := h.swept
  have hmid : Sound lib mid := (Kept.of_same hbefore.toSameEvents hs).sound
  have hswept : Sound lib swept := (kept_foldlM (fun _ _ _ hc => hc.sweepOne) hmid hsweep).sound
  exact (Kept.of_same hafter.toSameEvents hswept).sound

/-! ## The actions -/

theorem Coherent.ahrOnlyWrite {binding : CallerBinding} {action : InboxAction}
    {messageId value : String} (hc : Coherent lib offered db)
    (h : ahrOnlyWrite lib env db binding action messageId value now = .ok db') :
    Kept lib offered db db' := by
  simp only [Comms.ahrOnlyWrite, Except.bind_eq_ok, Except.throw_ne_ok, ite_eq_iff, false_and, and_false,
    exists_false, false_or] at h
  obtain ⟨rows, _, _, h⟩ := h
  split at h
  · exact hc.acts (hc.readBack h)
  · exact hc.acts (hc.answer h)
  · exact hc.acts (hc.withdraw h)
  · obtain ⟨declined, hdeclined, h⟩ := Except.bind_eq_ok.mp h
    have hkept := hc.acts (hc.decline hdeclined)
    exact hkept.trans (.of_same (quiet_acknowledge h).toSameEvents hkept.coherent)

theorem Coherent.ahrWrite {binding : CallerBinding} {action : InboxAction}
    {value nextRead : Option String} {messageId : String} (hc : Coherent lib offered db)
    (h : ahrWrite lib env binding action value nextRead now db messageId = .ok db') :
    Kept lib offered db db' := by
  unfold Comms.ahrWrite at h
  split at h
  · exact hc.ahrOnlyWrite h
  · split at h
    · split at h
      · cases h
      · cases h
        exact .refl hc
    · split at h
      · exact hc.acts (hc.accept h)
      · split at h
        · cases h
        · exact hc.acts (hc.report h)
      · exact hc.acts (hc.complete h)

theorem Coherent.handoffAction {binding : CallerBinding} {args : InboxArgs} {limit : Nat}
    (hc : Coherent lib offered db)
    (h : handoffAction lib env db binding args now limit = .ok db') : Kept lib offered db db' := by
  simp only [Comms.handoffAction, Except.bind_eq_ok, Except.throw_ne_ok, ite_eq_iff, false_and,
    and_false, exists_false, false_or] at h
  obtain ⟨ids, _, value, _, _, nextRead, _, _, mid, hmid, h⟩ := h
  have hkept : Kept lib offered db mid := .of_same (milestoneWrite_sameEvents hmid) hc
  exact hkept.trans (kept_foldlM (fun _ _ _ hc => hc.ahrWrite) hkept.coherent h)

theorem Sound.acted {call : Call T} (hs : Sound lib db) (h : Acted lib call db now db') :
    Sound lib db' := by
  cases h with
  | quiet hq => exact (Kept.of_same hq.toSameEvents hs).sound
  | handoff hq hwrote =>
      have hmid := (Kept.of_same hq.toSameEvents hs).sound
      exact (Coherent.handoffAction hmid hwrote).sound
  | offered hq _ hlisted hadmitted hwrote =>
      have hmid := (Kept.of_same (hq.trans (quiet_admitMessage hadmitted)).toSameEvents hs).sound
      exact hmid.offer hlisted hwrote

theorem Sound.performs {call : Call T} (hs : Sound lib db) (h : Performs lib db call db') :
    Sound lib db' := by
  obtain rfl | ⟨now, mid, hprepared, hacted⟩ := perform_cases h
  · exact hs
  · exact (hs.prepared hprepared).acted hacted

theorem run_sound {calls : List (Call T)} (h : Run (Performs lib) {} calls db) : Sound lib db :=
  h.invariant (I := Sound lib) Coherent.empty fun _ _ _ hs hp => hs.performs hp

/-- In every mailbox a run of calls reaches, the rows of each handoff rebuild to the log their
writer had when it wrote the last of them. -/
theorem rebuild_agrees {calls : List (Call T)} (hrun : Run (Performs lib) {} calls db) :
    ∀ row ∈ db.ahrEvents, ∃ log, Dict.lookup db.written row.handoffId = some log ∧
      rebuild lib db row.handoffId = .ok log := by
  have hs := run_sound hrun
  intro row hmem
  have hne : rowsOf db row.handoffId ≠ [] :=
    List.ne_nil_of_mem (List.mem_filter.mpr ⟨hmem, by simp⟩)
  obtain ⟨log, hwritten, hlog⟩ := hs.logs _ hne
  refine ⟨log, hwritten, rebuild_eq_ok.mpr ?_⟩
  rw [hs.eventRows_eq]
  exact hlog.rebuilds

end

/-! ## A small mailbox

A mailbox that one call offers the sample record in. Time is counted in microseconds. -/

instance : Clock Nat where
  zero := 0
  plus t n := t + n * 1000000
  recent now t := decide (now - t < 60000000)
  fromTimestamp t := pure (t + daysBeforeYear 1970 * 86400000000)
  timestampAfter i t := decide (t + daysBeforeYear 1970 * 86400000000 < i)
  zero_le := Nat.zero_le
  le_plus _ _ := Nat.le_add_right _ _
  recent_later _ _ _ _ _ _ := by simp only [decide_eq_true_eq] at *; omega
  recent_earlier _ _ _ _ _ _ := by simp only [decide_eq_true_eq] at *; omega
  fromTimestamp_mono t u a b h ha hb := by
    rw [Except.pure_eq_ok] at ha hb
    rw [← ha, ← hb]
    exact Nat.add_le_add_right h _

/-- The sample library with one digest for everything, the sample record's. -/
def oneDigest : Stdlib :=
  { sampleLib with
    sha256 := fun _ => "d54403480fc678865be0ca068e33fb89428c7c4b65e25d52120ce7197012c882" }

def sampleConfig : Config where
  groupRowLimit := ⟨64, by decide⟩
  groupBodyBudgetBytes := ⟨65536, by decide⟩
  retryGraceSeconds := ⟨0, by decide⟩
  bodyMaxBytes := ⟨4096, by decide⟩
  recipientOutstandingLimit := ⟨8, by decide⟩
  fetchMaxItems := ⟨8, by decide⟩
  responseMaxBytes := ⟨65536, by decide⟩
  senderAdmissionsPerMinute := ⟨8, by decide⟩
  leaseTtlSeconds := ⟨600, by decide⟩
  messageTtlSeconds := ⟨3600, by decide⟩
  scopeMaxRecipients := ⟨8, by decide⟩
  scopeMaxBytes := ⟨256, by decide⟩
  waitMaxSeconds := ⟨0, by decide⟩
  deliverable := by decide

/-- A call of alice, who shares the formation with bob. -/
def sampleCall (request : Request) (file : ByteArray) : Call Nat where
  snapshot := {
    binding := {
      groupId := "0123456789abcdef0123456789abcdef"
      formationId := "f-1"
      memberId := "alice"
      sessionId := "s-alice"
      runPath := "/r/alice"
      manifestPath := "/r/formation.yaml" }
    allTerminal := false
    recipients := [⟨"alice", true, some "/r/alice", some "s-alice", [], false⟩,
      ⟨"bob", true, some "/r/bob", some "s-bob", [], false⟩] }
  config := sampleConfig
  wall := 1735689601000000
  env := {
    messageId := fun _ => "00000000000000000000000000000001"
    eventId := fun h n => h ++ "-" ++ toString n
    traceparent := none
    file := fun path => if path = "h.json" then some ("h.json", file) else none }
  memory := {}
  request

def sampleArgs : SendArgs where
  recipientMemberId := some "bob"
  requestKey := "k"
  handoff := some (.obj [("path", .str "h.json")])

def sampleOffering : Call Nat :=
  sampleCall (.send sampleArgs) (String.ofList (render sampleHandoff)).toUTF8

def sampleSealed : Json := (sealUnsealed oneDigest sampleHandoff).toOption.getD .null

/-- What the offer reads of the sealed record. -/
structure SampleReads : Prop where
  sealedSafe : sampleSealed.isSafe
  sealedLength : ((render sampleSealed).flatMap String.utf8EncodeChar).length = 751
  sealing : (sealUnsealed oneDigest sampleHandoff).toOption = some sampleSealed
  digest : (digest oneDigest sampleSealed).toOption =
    some "sha256:d54403480fc678865be0ca068e33fb89428c7c4b65e25d52120ce7197012c882"

theorem sample_reads : SampleReads where
  sealedSafe := by decide +kernel
  sealedLength := by decide +kernel
  sealing := by decide +kernel
  digest := by decide +kernel

theorem sample_size : (String.ofList (render sampleHandoff)).toUTF8.size ≤ maxInputBytes := by
  rw [sampleHandoff_size]
  exact of_decide_eq_true rfl

theorem sample_loads :
    loads oneDigest (String.ofList (render sampleHandoff)).toUTF8 = .ok sampleHandoff := by
  have handoffReads := sampleHandoff_reads
  rw [loads_jcs oneDigest handoffReads.safe rfl sample_size, handoffReads.canon]

theorem sampleSealed_size : (String.ofList (render sampleSealed)).toUTF8.size = 751 := by
  have reads := sample_reads
  have hbytes (l : List Char) :
      (String.ofList l).toUTF8 = (l.flatMap String.utf8EncodeChar).toByteArray := rfl
  rw [hbytes, List.size_toByteArray, reads.sealedLength]

theorem sampleSealed_valid : validate oneDigest sampleSealed none = .ok [] := by
  have reads := sample_reads
  unfold validate validateWith l1Findings
  rw [jcs_eq reads.sealedSafe]
  dsimp only
  rw [sampleSealed_size]
  exact Except.ok_of_toOption (by decide +kernel)

/-- The log of the sealed sample. -/
def sampleFresh : AhrLog where
  handoff := sampleSealed
  recordDigest := "sha256:d54403480fc678865be0ca068e33fb89428c7c4b65e25d52120ce7197012c882"

theorem sampleSealed_start : start oneDigest sampleSealed = .ok (some sampleFresh, []) := by
  have reads := sample_reads
  have hcheck : checkDoc oneDigest sampleSealed none = .ok [] := by
    rw [checkDoc, sampleSealed_valid]
    rfl
  have hdigest : digest oneDigest sampleSealed = .ok sampleFresh.recordDigest :=
    Except.ok_of_toOption reads.digest
  simp only [start, Except.bind_eq_ok, Except.pure_eq_ok, ite_eq_iff]
  exact ⟨[], hcheck, .inr ⟨by simp, _, hdigest, rfl⟩⟩

theorem sample_read :
    readOffer oneDigest sampleOffering.env "h.json" "alice" "bob" = .ok sampleSealed := by
  have reads := sample_reads
  have hload (r : Request) (file : ByteArray) :
      loadRecord oneDigest (sampleCall r file).env "h.json" "handoff" = (do
        let doc ← loadsOrRefuse oneDigest file
        if doc.get? "type" ≠ some (.str "handoff") then throw (.refused "ahr_invalid")
        return doc.canon) := rfl
  have h : loadRecord oneDigest sampleOffering.env "h.json" "handoff" = .ok sampleHandoff := by
    rw [sampleOffering, hload, loadsOrRefuse, sample_loads]
    rfl
  have hseal : sealUnsealed oneDigest sampleHandoff = .ok sampleSealed :=
    Except.ok_of_toOption reads.sealing
  rw [readOffer]
  refine Except.bind_eq_ok.mpr ⟨sampleHandoff, h, ?_⟩
  refine Except.bind_eq_ok.mpr ⟨sampleSealed, hseal, ?_⟩
  refine Except.bind_eq_ok.mpr ⟨_, uncaught_eq_ok.mpr sampleSealed_start, ?_⟩
  exact Except.ok_of_toOption (by decide +kernel)

/-- The sample's send, once its file is read. -/
def sampleSend (db : Db Nat) (now : Nat) : Mail (Db Nat) := do
  let db ← (touch db {} sampleOffering.snapshot.binding now 600 true).2
  let body ← bodyOf oneDigest sampleArgs (some sampleSealed)
  sendDirect oneDigest sampleOffering sampleArgs (some sampleSealed) body db now

theorem sample_body (db : Db Nat) (now : Nat) (closed : Bool) :
    body oneDigest sampleOffering db now closed = sampleSend db now := by
  have hbody : body oneDigest sampleOffering db now closed = (do
      let db ← (touch db {} sampleOffering.snapshot.binding now 600 true).2
      let record ← (do
        return some (← readOffer oneDigest sampleOffering.env "h.json" "alice" "bob"))
      let body ← bodyOf oneDigest sampleArgs record
      sendDirect oneDigest sampleOffering sampleArgs record body db now) := rfl
  rw [hbody, sample_read]
  rfl

theorem offer_of_start {record : Json} {fresh : AhrLog}
    (hstart : uncaught (start oneDigest record) = .ok (some fresh, []))
    (hrecord : fresh.handoff = record) (env : Surroundings) (db : Db Nat)
    (groupId messageId : String) (now : Nat) :
    offer oneDigest env db groupId messageId record now = (do
      if ← uncaught (exceedsTtl db messageId record) then
        throw (.refused "ahr_expiry_exceeds_ttl")
      let handoffId ← uncaught (record.strItem "handoff_id")
      match offeredRow db handoffId with
      | some row =>
          if ← uncaught (isSameOffer oneDigest row messageId record) then return db
          else throw (.refused "ahr_event_conflict")
      | none => do
          let listed ← uncaught (record.listGet "supersedes")
          let db ← listed.foldlM (supersedeListed oneDigest env groupId record now) db
          let sender ← uncaught (record.item "from")
          let raw ← uncaught (jcs record)
          append oneDigest env db fresh messageId "offered" sender now none (some raw) []) := by
  subst hrecord
  unfold offer
  rw [hstart]
  rfl

theorem sampleSealed_started :
    uncaught (start oneDigest sampleSealed) = .ok (some sampleFresh, []) := by
  rw [sampleSealed_start]
  rfl

theorem sampleFresh_handoff : sampleFresh.handoff = sampleSealed := rfl

theorem sample_offered :
    ((transact oneDigest {} sampleOffering).toOption.map fun r =>
      r.1.ahrEvents.map (·.handoffId)) = some ["h-1"] := by
  simp only [transact, sample_body, sampleSend, sendDirect,
    offer_of_start sampleSealed_started sampleFresh_handoff]
  decide +kernel

theorem rebuild_agrees_sample : ∃ db row, Run (Performs oneDigest) {} [sampleOffering] db ∧
    row ∈ db.ahrEvents ∧ row.handoffId = "h-1" ∧
    ∃ log, Dict.lookup db.written "h-1" = some log ∧ rebuild oneDigest db "h-1" = .ok log := by
  obtain ⟨⟨db, refusal⟩, hok, hrows⟩ := Option.map_eq_some_iff.mp sample_offered
  have hperform : Performs oneDigest {} sampleOffering db := by
    rw [Performs, perform, Except.ok_of_toOption hok]
  have hrun := Run.single hperform
  obtain ⟨row, hmem, hrow⟩ := List.mem_map.mp
    (show "h-1" ∈ db.ahrEvents.map (·.handoffId) by rw [hrows]; exact List.mem_singleton_self _)
  refine ⟨db, row, hrun, hmem, hrow, ?_⟩
  rw [← hrow]
  exact rebuild_agrees hrun row hmem

end TrwMcp.Comms
