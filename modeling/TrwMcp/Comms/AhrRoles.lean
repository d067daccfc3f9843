import TrwMcp.Comms.AhrGate

/-!
# The shape of a run, and who did what in it

The lifecycle of the log is a path of `Edge`s, its events are numbered and never go back in time,
and no principal plays two parts that must be apart. What depends only on the handoff and one event
is read off `Admitted`; what depends on earlier events is carried by `Roles`.
-/

namespace TrwMcp.Comms

open Handoff Lib

/-! ## The lifecycle -/

/-- The moves of the lifecycle; `none` is a record with no event yet. -/
inductive Edge : Option LogState → Option LogState → Prop
  | offer : Edge none (some .offered)
  | accept : Edge (some .offered) (some .accepted)
  | report : Edge (some .accepted) (some .reported)
  | complete : Edge (some .reported) (some .completed)
  | decline : Edge (some .offered) (some .declined)
  | withdraw : Edge (some .offered) (some .withdrawn)
  | supersede : Edge (some .offered) (some .superseded)
  | expire : Edge (some .offered) (some .expired)

section

variable {lib : Stdlib} {log log' : AhrLog} {s : Step} {handoff : Json} {e : Entry}
  {entries : List Entry}

theorem Change.edge (h : Change lib log s log') :
    log'.state = log.state ∨ Edge log.state log'.state := by
  cases h with
  | offered _ fresh => exact .inr (fresh ▸ .offer)
  | accepted _ offered => exact .inr (offered ▸ .accept)
  | declined _ offered => exact .inr (offered ▸ .decline)
  | reported _ accepted => exact .inr (accepted ▸ .report)
  | completed _ reported => exact .inr (reported ▸ .complete)
  | withdrawn _ offered => exact .inr (offered ▸ .withdraw)
  | superseded _ offered => exact .inr (offered ▸ .supersede)
  | expired _ offered => exact .inr (offered ▸ .expire)
  | readBack | answered | readbackVerified | other => exact .inl rfl

theorem Change.keeps (h : Change lib log s log') :
    log'.handoff = log.handoff ∧ log'.recordDigest = log.recordDigest ∧ log'.count = log.count ∧
      log'.prevAt = log.prevAt := by
  cases h <;> exact ⟨rfl, rfl, rfl, rfl⟩

theorem Admitted.handoff_eq (h : Admitted lib log e.ev e.target s log') :
    log'.handoff = log.handoff := by
  obtain ⟨_, _, _, hchange⟩ := h.change
  exact hchange.keeps.1

theorem Admitted.count_eq (h : Admitted lib log e.ev e.target s log') :
    log'.count = log.count + 1 := by
  obtain ⟨_, _, _, hchange⟩ := h.change
  exact hchange.keeps.2.2.1

theorem Admitted.prevAt_eq (h : Admitted lib log e.ev e.target s log') :
    log'.prevAt = some s.at_ := by
  obtain ⟨_, _, _, hchange⟩ := h.change
  exact hchange.keeps.2.2.2

/-! ## Numbers and times -/

/-- The first event was stored no later than the second. -/
def StoredBefore (e e' : Entry) : Prop :=
  ∃ t t', evTime e.ev = some t ∧ evTime e'.ev = some t' ∧ t ≤ t'

/-- The log numbers the events and remembers the last time. -/
structure Clocked (entries : List Entry) (log : AhrLog) : Prop where
  count : log.count = entries.length
  latest : ∀ e ∈ entries, ∃ t last, evTime e.ev = some t ∧ log.prevAt = some last ∧ t ≤ last
  ordered : entries.Pairwise StoredBefore

theorem Clocked.step (hc : Clocked entries log) (h : Admitted lib log e.ev e.target s log') :
    Clocked (entries ++ [e]) log' := by
  constructor
  case count => rw [h.count_eq, hc.count, List.length_append, List.length_singleton]
  case latest =>
    intro e' hmem
    rcases List.mem_append.mp hmem with hin | hlast
    · obtain ⟨t, last, ht, hlast, hle⟩ := hc.latest e' hin
      exact ⟨t, s.at_, ht, h.prevAt_eq, hle.trans (h.monotone last hlast)⟩
    · obtain rfl : e' = e := by simpa using hlast
      exact ⟨s.at_, s.at_, h.step.time, h.prevAt_eq, le_refl _⟩
  case ordered =>
    refine List.pairwise_append.mpr ⟨hc.ordered, List.pairwise_singleton _ _, ?_⟩
    intro e' hin e'' hlast
    obtain rfl : e'' = e := by simpa using hlast
    obtain ⟨t, last, ht, hlast, hle⟩ := hc.latest e' hin
    exact ⟨t, s.at_, ht, h.step.time, hle.trans (h.monotone last hlast)⟩

/-! ## Parts -/

namespace Entry

/-- The event stored a read-back with this digest. -/
def StoresReadBack (d : String) (e : Entry) : Prop :=
  evKind e.ev = some "read_back" ∧ evRefDigest e.ev = some d

/-- The event recorded a verdict on the read-back with this digest. -/
def Judges (d : String) (e : Entry) : Prop :=
  ∃ v, e.verdict? = some v ∧ v.getStr? "readback_digest" = some d

end Entry

/-- Who may hold the record: not its sender, not its completer, and the one it is addressed to. -/
structure MayHold (handoff : Json) (r : String) : Prop where
  sender : ∃ sender, senderOf handoff = .ok sender ∧ r ≠ sender
  completer : ∃ completer, completerOf handoff = .ok completer ∧ completer ≠ some r
  addressed : isAddressed handoff = .ok true →
    (handoff.get? "to").bind (·.get? "id") = some (.str r)

/-- On an unaddressed record the one principal that may record a verdict. -/
def IsVerifier (handoff : Json) (actor : String) : Prop :=
  ∃ verifierId sender, verifierIdOf handoff = .ok verifierId ∧ senderOf handoff = .ok sender ∧
    actor = (verifierId.filter (· ≠ "")).getD sender

/-- X-17, as `step` needs it. -/
def NotSelfAddressed (handoff : Json) : Prop :=
  isAddressed handoff = .ok true → ∀ sender, senderOf handoff = .ok sender →
    (handoff.get? "to").bind (·.get? "id") ≠ some (.str sender)

theorem notSelfAddressed_of_valid (h : checkDoc lib handoff none = .ok [])
    (htype : handoff.get? "type" = some (.str "handoff")) : NotSelfAddressed handoff := by
  intro haddressed sender hsender hid
  simp only [isAddressed, Except.bind_eq_ok, Except.pure_eq_ok] at haddressed
  obtain ⟨recipient, hto, kind, hkind, hyes⟩ := haddressed
  simp only [senderOf, Except.bind_eq_ok] at hsender
  obtain ⟨from_, hfrom, hname⟩ := hsender
  rw [Json.item_ok hto, Option.bind_some] at hid
  refine sender_ne_receiver (handoffPrincipals_of_valid h htype) hto hfrom ?_ hid
    (Json.strItem_ok hname)
  rw [Json.get_ok hkind]
  simpa using hyes

theorem completerOf_addressed (h : isAddressed handoff = .ok true) {sender : String}
    (hsender : senderOf handoff = .ok sender) : completerOf handoff = .ok (some sender) := by
  simp [completerOf, h, hsender, bind, Except.bind, pure, Except.pure]

theorem mayHold_of_accepted (hstep : StepOf handoff s.ev s) (hself : NotSelfAddressed handoff)
    (may : s.mayReceive) (completer : s.addressed ∨ s.completer ≠ some s.actor) :
    MayHold handoff s.actor := by
  have hmay := hstep.mayReceive may
  cases haddressed : s.addressed with
  | true =>
      have hyes : isAddressed handoff = .ok true := by rw [hstep.addressed, haddressed]
      rw [haddressed, if_pos rfl] at hmay
      have hne : s.actor ≠ s.sender := by
        intro heq
        exact hself hyes s.sender hstep.sender (heq ▸ hmay)
      refine ⟨⟨s.sender, hstep.sender, hne⟩, ⟨some s.sender, ?_, ?_⟩, fun _ => hmay⟩
      · exact completerOf_addressed hyes hstep.sender
      · exact fun h => hne (Option.some.inj h).symm
  | false =>
      rw [haddressed] at hmay
      refine ⟨⟨s.sender, hstep.sender, by simpa using hmay⟩, ⟨_, hstep.completer, ?_⟩, ?_⟩
      · simpa [haddressed] using completer
      · rw [hstep.addressed, haddressed]
        simp

/-- Who stored which read-back, as far as later guards depend on it. -/
structure Roles (handoff : Json) (entries : List Entry) (log : AhrLog) : Prop where
  record : log.handoff = handoff
  holder : ∀ r, log.receiver = some r → MayHold handoff r
  stored : ∀ d e, e ∈ entries → e.StoresReadBack d → d ∈ log.seenRbDigests
  known : ∀ m ∈ log.latestRb, ∃ e ∈ entries, e.StoresReadBack m.2.digest ∧
    evActor e.ev = some m.1 ∧ readBackAuthor m.2.doc = some (.str m.1)
  sole : ∀ d e e', e ∈ entries → e' ∈ entries → e.StoresReadBack d → e'.StoresReadBack d → e = e'
  judged : ∀ d e, e ∈ entries → e.Judges d → ∃ e' ∈ entries, e'.StoresReadBack d ∧
    evActor e'.ev ≠ evActor e.ev

theorem storesReadBack_kind {d : String} (h : e.StoresReadBack d) :
    evKind e.ev = some "read_back" := h.1

theorem judges_kind {d : String} (h : e.Judges d) : evKind e.ev = some "readback_verified" := by
  obtain ⟨v, hv, _⟩ := h
  by_contra hne
  rw [verdict?_eq_none hne] at hv
  cases hv

theorem Roles.other (hr : Roles handoff entries log) (hrb : evKind e.ev ≠ some "read_back")
    (hv : evKind e.ev ≠ some "readback_verified") (hrecord : log'.handoff = log.handoff)
    (hlatest : log'.latestRb = log.latestRb) (hseen : log'.seenRbDigests = log.seenRbDigests)
    (hholder : ∀ r, log'.receiver = some r → MayHold handoff r) :
    Roles handoff (entries ++ [e]) log' := by
  have hold : ∀ d e', e' ∈ entries ++ [e] → e'.StoresReadBack d → e' ∈ entries := by
    intro d e' hmem hd
    rcases List.mem_append.mp hmem with hin | hlast
    · exact hin
    · obtain rfl : e' = e := by simpa using hlast
      exact absurd (storesReadBack_kind hd) hrb
  constructor
  case record => rw [hrecord, hr.record]
  case holder => exact hholder
  case stored =>
    intro d e' hmem hd
    rw [hseen]
    exact hr.stored d e' (hold d e' hmem hd) hd
  case known =>
    intro m hm
    rw [hlatest] at hm
    obtain ⟨e', hin, hstores⟩ := hr.known m hm
    exact ⟨e', List.mem_append_left _ hin, hstores⟩
  case sole =>
    intro d e' e'' hmem hmem' hd hd'
    exact hr.sole d e' e'' (hold d e' hmem hd) (hold d e'' hmem' hd') hd hd'
  case judged =>
    intro d e' hmem hd
    rcases List.mem_append.mp hmem with hin | hlast
    · obtain ⟨e'', hin', hstores⟩ := hr.judged d e' hin hd
      exact ⟨e'', List.mem_append_left _ hin', hstores⟩
    · obtain rfl : e' = e := by simpa using hlast
      exact absurd (judges_kind hd) hv

theorem Roles.readBack {d : String} {doc : Json} {rbIds : Dict String String}
    (hr : Roles handoff entries log) (hstores : e.StoresReadBack d)
    (hactor : evActor e.ev = some s.actor) (author : readBackAuthor doc = some (.str s.actor))
    (fresh : d ∉ log.seenRbDigests) :
    Roles handoff (entries ++ [e]) { log with
      rbIds, seenRbDigests := log.seenRbDigests ++ [d]
      latestRb := Dict.set log.latestRb s.actor ⟨d, doc, s.at_⟩ } := by
  have hdigest : ∀ d', e.StoresReadBack d' → d' = d := by
    intro d' hd'
    have := hstores.2.symm.trans hd'.2
    exact (Option.some.inj this).symm
  constructor
  case record => exact hr.record
  case holder => exact hr.holder
  case stored =>
    intro d' e' hmem hd'
    rcases List.mem_append.mp hmem with hin | hlast
    · exact List.mem_append_left _ (hr.stored d' e' hin hd')
    · obtain rfl : e' = e := by simpa using hlast
      simp [hdigest d' hd']
  case known =>
    intro m hm
    rcases Dict.mem_of_mem_set hm with rfl | hin
    · exact ⟨e, by simp, hstores, hactor, author⟩
    · obtain ⟨e', hin', hknown⟩ := hr.known m hin
      exact ⟨e', List.mem_append_left _ hin', hknown⟩
  case sole =>
    -- the new digest was never seen, so only the new event stores it
    have hnew : ∀ d' e', e' ∈ entries → e'.StoresReadBack d' → ¬e.StoresReadBack d' := by
      intro d' e' hin hd' hnew
      exact fresh (hdigest d' hnew ▸ hr.stored d' e' hin hd')
    intro d' e' e'' hmem hmem' hd' hd''
    rcases List.mem_append.mp hmem with hin | hlast <;>
      rcases List.mem_append.mp hmem' with hin' | hlast'
    · exact hr.sole d' e' e'' hin hin' hd' hd''
    · obtain rfl : e'' = e := by simpa using hlast'
      exact absurd hd'' (hnew d' e' hin hd')
    · obtain rfl : e' = e := by simpa using hlast
      exact absurd hd' (hnew d' e'' hin' hd'')
    · rw [List.mem_singleton.mp hlast, List.mem_singleton.mp hlast']
  case judged =>
    intro d' e' hmem hd'
    rcases List.mem_append.mp hmem with hin | hlast
    · obtain ⟨e'', hin', hjudged⟩ := hr.judged d' e' hin hd'
      exact ⟨e'', List.mem_append_left _ hin', hjudged⟩
    · obtain rfl : e' = e := by simpa using hlast
      have := (judges_kind hd').symm.trans hstores.1
      simp at this

theorem known_mem {d : String} {rb : Json} (h : log.known d = some rb) :
    ∃ m ∈ log.latestRb, m.2.digest = d ∧ m.2.doc = rb := by
  rw [AhrLog.known, Option.map_eq_some_iff] at h
  obtain ⟨m, hfind, rfl⟩ := h
  have hmem := List.mem_of_find?_eq_some hfind
  have hdigest := List.find?_some hfind
  exact ⟨m, List.mem_reverse.mp hmem, by simpa using hdigest, rfl⟩

theorem Roles.verdict {d : String} {v rb : Json} {doubt : Bool}
    (hr : Roles handoff entries log) (hkind : evKind e.ev = some "readback_verified")
    (hactor : evActor e.ev = some s.actor) (hv : e.ev.get? "verification" = some v)
    (hd : v.getStr? "readback_digest" = some d) (hknown : log.known d = some rb)
    (author : readBackAuthor rb ≠ some (.str s.actor)) :
    Roles handoff (entries ++ [e]) { log with
      verdict := Dict.set log.verdict d v
      verifiers := log.verifiers.insert s.actor
      anyFail := log.anyFail || doubt } := by
  have hold : ∀ d' e', e' ∈ entries ++ [e] → e'.StoresReadBack d' → e' ∈ entries := by
    intro d' e' hmem hd'
    rcases List.mem_append.mp hmem with hin | hlast
    · exact hin
    · obtain rfl : e' = e := by simpa using hlast
      have := (storesReadBack_kind hd').symm.trans hkind
      simp at this
  constructor
  case record => exact hr.record
  case holder => exact hr.holder
  case stored => exact fun d' e' hmem hd' => hr.stored d' e' (hold d' e' hmem hd') hd'
  case known =>
    intro m hm
    obtain ⟨e', hin, hstores⟩ := hr.known m hm
    exact ⟨e', List.mem_append_left _ hin, hstores⟩
  case sole =>
    intro d' e' e'' hmem hmem' hd' hd''
    exact hr.sole d' e' e'' (hold d' e' hmem hd') (hold d' e'' hmem' hd'') hd' hd''
  case judged =>
    intro d' e' hmem hd'
    rcases List.mem_append.mp hmem with hin | hlast
    · obtain ⟨e'', hin', hjudged⟩ := hr.judged d' e' hin hd'
      exact ⟨e'', List.mem_append_left _ hin', hjudged⟩
    · obtain rfl : e' = e := by simpa using hlast
      obtain ⟨m, hm, rfl, rfl⟩ := known_mem hknown
      obtain ⟨e'', hin', hstores, hby, hauthor⟩ := hr.known m hm
      obtain ⟨w, hw, hd''⟩ := hd'
      have hvw : v = w := by
        rw [Entry.verdict?, if_pos hkind, hv] at hw
        exact Option.some.inj hw
      have hdd : m.2.digest = d' := by
        rw [← hvw, hd] at hd''
        exact Option.some.inj hd''
      refine ⟨e'', List.mem_append_left _ hin', hdd ▸ hstores, ?_⟩
      rw [hby, hactor]
      intro heq
      exact author (Option.some.inj heq ▸ hauthor)

theorem Roles.step (hself : NotSelfAddressed handoff) (hr : Roles handoff entries log)
    (h : Admitted lib log e.ev e.target s log') : Roles handoff (entries ++ [e]) log' := by
  obtain ⟨eventId, _, _, hchange⟩ := h.change
  have hkind := h.step.kind
  have hintake : Roles handoff entries (log.intake e.ev eventId s) :=
    ⟨hr.record, hr.holder, hr.stored, hr.known, hr.sole, hr.judged⟩
  cases hchange with
  | readBack kind _ _ _ _ digest author _ fresh =>
      rw [h.step.event] at digest
      exact hintake.readBack ⟨by rw [hkind, kind], digest⟩ h.step.actor author fresh
  | readbackVerified kind _ verification digest known author _ _ _ =>
      rw [h.step.event] at verification
      exact hintake.verdict (by rw [hkind, kind]) h.step.actor verification digest known author
  | accepted kind _ may _ completer =>
      have hstep : StepOf handoff s.ev s := by
        rw [h.step.event, ← hr.record]
        exact h.step
      refine hintake.other (by simp [hkind, kind]) (by simp [hkind, kind]) rfl rfl rfl ?_
      intro r hreceiver
      obtain rfl : s.actor = r := by simpa using hreceiver
      exact mayHold_of_accepted hstep hself may completer
  | other kind =>
      refine hintake.other ?_ ?_ rfl rfl rfl hr.holder <;> rw [hkind] <;> intro hk <;>
        simp [Option.some.inj hk] at kind
  | _ kind =>
      exact hintake.other (by simp [hkind, kind]) (by simp [hkind, kind]) rfl rfl rfl hr.holder

/-! ## Completers, and verdicts on an unaddressed record -/

theorem completer_of_completed (hrecord : log.handoff = handoff)
    (h : Admitted lib log e.ev e.target s log') (hkind : evKind e.ev = some "completed")
    {completer : Option String} (hcompleter : completerOf handoff = .ok completer) :
    completer = some s.actor := by
  obtain ⟨_, _, _, hchange⟩ := h.change
  have hk : s.kind = "completed" := by
    rw [h.step.kind] at hkind
    exact Option.some.inj hkind
  have hown := h.step.completer
  rw [hrecord, hcompleter] at hown
  cases hchange with
  | completed _ _ completes _ => rw [Except.ok.inj hown, completes]
  | other kind => simp [hk] at kind
  | _ kind => simp [hk] at kind

theorem isVerifier_of_verdict (hrecord : log.handoff = handoff)
    (h : Admitted lib log e.ev e.target s log') (hkind : evKind e.ev = some "readback_verified") :
    IsVerifier handoff s.actor := by
  obtain ⟨_, _, _, hchange⟩ := h.change
  have hk : s.kind = "readback_verified" := by
    rw [h.step.kind] at hkind
    exact Option.some.inj hkind
  have hsender := h.step.sender
  have hverifier := h.step.verifierId
  rw [hrecord] at hsender hverifier
  cases hchange with
  | readbackVerified _ _ _ _ _ _ _ verifier _ => exact ⟨_, _, hverifier, hsender, verifier⟩
  | other kind => simp [hk] at kind
  | _ kind => simp [hk] at kind

theorem not_isVerifier (hrecord : log.handoff = handoff)
    (h : Admitted lib log e.ev e.target s log') (hun : isAddressed handoff = .ok false)
    (hkind : evKind e.ev = some "read_back" ∨ evKind e.ev = some "accepted") :
    ¬IsVerifier handoff s.actor := by
  obtain ⟨_, _, _, hchange⟩ := h.change
  have haddressed : s.addressed = false := by
    have := h.step.addressed
    rw [hrecord, hun] at this
    exact (Except.ok.inj this).symm
  have hk : s.kind = "read_back" ∨ s.kind = "accepted" := by
    rw [h.step.kind, Option.some.injEq, Option.some.injEq] at hkind
    exact hkind
  have hsender := h.step.sender
  have hverifier := h.step.verifierId
  rw [hrecord] at hsender hverifier
  -- neither the sender nor the designated verifier takes part as a receiver
  have hne : s.actor ≠ s.sender ∧ s.verifierId ≠ some s.actor := by
    cases hchange with
    | readBack _ _ may _ _ _ _ unverified _ =>
        have hmay := h.step.mayReceive may
        rw [haddressed] at hmay unverified
        simp only [Bool.false_eq_true, if_false, false_or] at hmay unverified
        exact ⟨hmay, unverified.2⟩
    | accepted _ _ may verifier _ _ _ _ =>
        have hmay := h.step.mayReceive may
        rw [haddressed] at hmay verifier
        simp only [Bool.false_eq_true, if_false, false_or] at hmay verifier
        exact ⟨hmay, verifier⟩
    | other kind => rcases hk with hk | hk <;> simp [hk] at kind
    | _ kind => rcases hk with hk | hk <;> simp [hk] at kind
  rintro ⟨verifierId, sender, hv, hs, hactor⟩
  obtain rfl : s.verifierId = verifierId := Except.ok.inj (hverifier.symm.trans hv)
  obtain rfl : s.sender = sender := Except.ok.inj (hsender.symm.trans hs)
  cases hid : s.verifierId with
  | none =>
      rw [hid] at hactor
      exact hne.1 hactor
  | some v =>
      by_cases hempty : v = ""
      · simp only [hid, hempty, Option.filter] at hactor
        exact hne.1 hactor
      · simp only [hid, Option.filter, ne_eq, hempty, not_false_eq_true, decide_true, if_true,
          Option.getD_some] at hactor
        exact hne.2 (by rw [hid, hactor])

/-! ## Whole runs -/

theorem run_roles {log₀ : AhrLog} (htype : handoff.get? "type" = some (.str "handoff"))
    (hstart : start lib handoff = .ok (some log₀, [])) (hrun : Run (Admits lib) log₀ entries log) :
    Clocked entries log ∧ Roles handoff entries log := by
  obtain ⟨hvalid, d, _, rfl⟩ := start_clean hstart
  have hself := notSelfAddressed_of_valid hvalid htype
  have hnone : Clocked [] { handoff, recordDigest := d } ∧
      Roles handoff [] { handoff, recordDigest := d } :=
    ⟨⟨rfl, by simp, .nil⟩, ⟨rfl, by simp, by simp, by simp, by simp, by simp⟩⟩
  refine Run.history_invariant (I := fun entries log => Clocked entries log ∧
    Roles handoff entries log) hnone ?_ hrun
  · intro entries' t e t' _ ⟨hc, hr⟩ hstep
    obtain ⟨s, hs⟩ := step_clean hstep
    exact ⟨hc.step hs, hr.step hself hs⟩

end

/-- What every event of a run met: its state was open and it left along an edge or stayed, an
offered record at its expiry took only `expired`, and its number is its position. -/
structure InOrder (handoff : Json) (log : AhrLog) (e : Entry) (log' : AhrLog) (n : Nat) : Prop where
  edge : log'.state = log.state ∨ Edge log.state log'.state
  live : ∀ st, log.state = some st → st.isTerminal = false
  due : ∀ expires at_, expiresAt handoff = .ok (some expires) → evTime e.ev = some at_ →
    log.state = some .offered → expires ≤ at_ → evKind e.ev = some "expired"
  seq : e.ev.get? "seq" = some (.int (n + 1))

theorem inOrder_of_admitted {lib : Stdlib} {log log' : AhrLog} {e : Entry} {s : Step}
    {handoff : Json} (hrecord : log.handoff = handoff)
    (h : Admitted lib log e.ev e.target s log') : InOrder handoff log e log' log.count := by
  obtain ⟨_, _, _, hchange⟩ := h.change
  refine ⟨hchange.edge, h.live, ?_, h.seq⟩
  intro expires at_ hexpires htime hoffered hle
  have hexp := h.step.expires
  rw [hrecord, hexpires] at hexp
  rw [h.step.time] at htime
  obtain rfl := Option.some.inj htime
  rw [h.step.kind, h.due hoffered ?_]
  rw [← Except.ok.inj hexp]
  simpa using hle

/-- Separation of duties and the shape of the lifecycle, over every run. -/
theorem separation_of_duties {lib : Stdlib} {handoff : Json} {log₀ log : AhrLog}
    {entries : List Entry} (htype : handoff.get? "type" = some (.str "handoff"))
    (hstart : start lib handoff = .ok (some log₀, []))
    (hrun : Run (Admits lib) log₀ entries log) :
    log₀.state = none ∧
    (∀ before e after, entries = before ++ e :: after → ∃ t t', Run (Admits lib) log₀ before t ∧
      Admits lib t e t' ∧ Run (Admits lib) t' after log ∧
      InOrder handoff t e t' before.length) ∧
    entries.Pairwise StoredBefore ∧
    (∀ r, log.receiver = some r → MayHold handoff r ∧
      ∀ e ∈ entries, evKind e.ev = some "completed" → evActor e.ev ≠ some r) ∧
    (∀ d, ∀ e ∈ entries, e.Judges d → (∃ e' ∈ entries, e'.StoresReadBack d) ∧
      ∀ e' ∈ entries, e'.StoresReadBack d → evActor e'.ev ≠ evActor e.ev) ∧
    (isAddressed handoff = .ok false → ∀ e ∈ entries, ∀ e' ∈ entries,
      evKind e.ev = some "readback_verified" →
      evKind e'.ev = some "read_back" ∨ evKind e'.ev = some "accepted" →
      evActor e.ev ≠ evActor e'.ev) := by
  have hall := fun {xs t} (h : Run (Admits lib) log₀ xs t) => run_roles htype hstart h
  -- every event was admitted by a log of this handoff
  have hadmitted : ∀ e ∈ entries, ∃ t s t', t.handoff = handoff ∧
      Admitted lib t e.ev e.target s t' := by
    intro e hmem
    obtain ⟨before, after, rfl⟩ := List.append_of_mem hmem
    obtain ⟨t, t', hbefore, hstep, _⟩ := hrun.split
    obtain ⟨s, hs⟩ := step_clean hstep
    exact ⟨t, s, t', (hall hbefore).2.record, hs⟩
  obtain ⟨hclock, hroles⟩ := hall hrun
  refine ⟨?_, ?_, hclock.ordered, ?_, ?_, ?_⟩
  · obtain ⟨_, d, _, rfl⟩ := start_clean hstart
    rfl
  · rintro before e after rfl
    obtain ⟨t, t', hbefore, hstep, hafter⟩ := hrun.split
    obtain ⟨s, hs⟩ := step_clean hstep
    obtain ⟨hc, hr⟩ := hall hbefore
    refine ⟨t, t', hbefore, hstep, hafter, ?_⟩
    rw [← hc.count]
    exact inOrder_of_admitted hr.record hs
  · intro r hr
    have hhold := hroles.holder r hr
    refine ⟨hhold, ?_⟩
    intro e hmem hkind hactor
    obtain ⟨t, s, _, ht, hs⟩ := hadmitted e hmem
    rw [hs.step.actor, Option.some.injEq] at hactor
    obtain ⟨completer, hcompleter, hne⟩ := hhold.completer
    rw [← hactor, completer_of_completed ht hs hkind hcompleter] at hne
    exact hne rfl
  · intro d e hmem hd
    obtain ⟨e', hmem', hstores, hne⟩ := hroles.judged d e hmem hd
    refine ⟨⟨e', hmem', hstores⟩, ?_⟩
    intro e'' hmem'' hstores''
    rwa [hroles.sole d e'' e' hmem'' hmem' hstores'' hstores]
  · intro hun e hmem e' hmem' hverdict hreceive hsame
    obtain ⟨t, s, _, ht, hs⟩ := hadmitted e hmem
    obtain ⟨t', s', _, ht', hs'⟩ := hadmitted e' hmem'
    refine not_isVerifier ht' hs' hun hreceive ?_
    rw [hs.step.actor, hs'.step.actor, Option.some.injEq] at hsame
    rw [← hsame]
    exact isVerifier_of_verdict ht hs hverdict

theorem separation_of_duties_sample : MayHold sampleHandoff "bob" ∧
    [sampleOffer, sampleAccept].Pairwise StoredBefore := by
  obtain ⟨log, hrun, _, hbob⟩ := sample_run
  obtain ⟨_, _, hordered, hholder, _⟩ := separation_of_duties (by decide) sample_start hrun
  exact ⟨(hholder "bob" hbob).1, hordered⟩

end TrwMcp.Comms
