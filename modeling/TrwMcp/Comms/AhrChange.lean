import TrwMcp.Comms.AhrLog

/-!
# What one admitted event does

`step` is inverted once: an event admitted without a violation has passed the shared guards
(`Admitted`) and changes the log in one of the ways of `Change`, one for each kind of event, with
the guards of its branch. Every invariant of a log is proved from these two.
-/

namespace TrwMcp.Comms

open Handoff Lib

/-! ## Reading an event -/

def evKind (ev : Json) : Option String := ev.getStr? "event"

def evActor (ev : Json) : Option String := (ev.get? "actor").bind (·.getStr? "id")

def evTime (ev : Json) : Option Instant := (ev.getStr? "at").bind fun t => (instant t).toOption

def evRefDigest (ev : Json) : Option String := (ev.get? "ref").bind (·.getStr? "digest")

/-- `by.id` of a read-back. -/
def readBackAuthor (doc : Json) : Option Json := (doc.get? "by").bind (·.get? "id")

/-- `readback.verifier.id` of a handoff. -/
def verifierIdOf (handoff : Json) : Py (Option String) := do
  optStr (← (← verifierOf handoff).get "id")

section

variable {lib : Stdlib} {log log' : AhrLog} {s : Step} {ev handoff : Json}
  {target : Option Target}

/-- The locals are read off the event and the handoff. -/
structure StepOf (handoff ev : Json) (s : Step) : Prop where
  event : s.ev = ev
  record : s.handoff = handoff
  kind : evKind ev = some s.kind
  actor : evActor ev = some s.actor
  time : evTime ev = some s.at_
  tier : handoff.getStr? "tier" = some s.tier
  sender : senderOf handoff = .ok s.sender
  addressed : isAddressed handoff = .ok s.addressed
  completer : completerOf handoff = .ok s.completer
  verifierId : verifierIdOf handoff = .ok s.verifierId
  expires : expiresAt handoff = .ok s.expires
  mayReceive : s.mayReceive → if s.addressed then
      ((handoff.get? "to").bind (·.get? "id")) = some (.str s.actor) else s.actor ≠ s.sender

/-- The effect of an admitted event on the log, with the guards of its branch. -/
inductive Change (lib : Stdlib) (log : AhrLog) (s : Step) : AhrLog → Prop
  | offered (kind : s.kind = "offered") (fresh : log.state = none) (sender : s.actor = s.sender) :
      Change lib log s { log with state := some .offered }
  | readBack {doc : Json} {d : String} {rbIds : Dict String String} (kind : s.kind = "read_back")
      (live : log.state = some .offered ∨ log.state = some .accepted) (may : s.mayReceive)
      (receiver : ∀ r, log.receiver = some r → r = s.actor) (record : s.record? = some doc)
      (digest : evRefDigest s.ev = some d) (author : readBackAuthor doc = some (.str s.actor))
      (unverified : s.addressed ∨ s.actor ∉ log.verifiers ∧ s.verifierId ≠ some s.actor)
      (fresh : d ∉ log.seenRbDigests) :
      Change lib log s { log with
        rbIds, seenRbDigests := log.seenRbDigests ++ [d]
        latestRb := Dict.set log.latestRb s.actor ⟨d, doc, s.at_⟩ }
  | answered (kind : s.kind = "answered")
      (live : log.state = some .offered ∨ log.state = some .accepted)
      (sender : s.actor = s.sender) : Change lib log s log
  | readbackVerified {v rb : Json} {d : String} {doubt : Bool} (kind : s.kind = "readback_verified")
      (live : log.state = some .offered ∨ log.state = some .accepted)
      (verification : s.ev.get? "verification" = some v)
      (digest : v.getStr? "readback_digest" = some d) (known : log.known d = some rb)
      (author : readBackAuthor rb ≠ some (.str s.actor))
      (unread : s.addressed ∨ Dict.has log.latestRb s.actor = false)
      (verifier : s.actor = (s.verifierId.filter (· ≠ "")).getD s.sender)
      (raises : raisesDoubt v = .ok doubt) :
      Change lib log s { log with
        verdict := Dict.set log.verdict d v
        verifiers := log.verifiers.insert s.actor
        anyFail := log.anyFail || doubt }
  | accepted (kind : s.kind = "accepted") (offered : log.state = some .offered)
      (may : s.mayReceive) (verifier : s.addressed ∨ s.verifierId ≠ some s.actor)
      (completer : s.addressed ∨ s.completer ≠ some s.actor)
      (contradicted : latestHasResult log s.actor "contradicted" = .ok false)
      (failed : latestFailed log s.actor = .ok false) (gate : acceptanceGate log s = .ok []) :
      Change lib log s { log with state := some .accepted, receiver := some s.actor }
  | declined (kind : s.kind = "declined") (offered : log.state = some .offered)
      (may : s.mayReceive) (allowed : mayDecline lib log s = .ok true) :
      Change lib log s { log with state := some .declined }
  | reported (kind : s.kind = "reported") (accepted : log.state = some .accepted)
      (receiver : log.receiver = some s.actor) :
      Change lib log s { log with state := some .reported }
  | completed (kind : s.kind = "completed") (reported : log.state = some .reported)
      (completer : s.completer = some s.actor) (receiver : log.receiver ≠ some s.actor) :
      Change lib log s { log with state := some .completed }
  | withdrawn (kind : s.kind = "withdrawn") (offered : log.state = some .offered)
      (sender : s.actor = s.sender) : Change lib log s { log with state := some .withdrawn }
  | superseded (kind : s.kind = "superseded") (offered : log.state = some .offered)
      (sound : supersessionError lib log s = .ok none) :
      Change lib log s { log with state := some .superseded }
  | expired (kind : s.kind = "expired") (offered : log.state = some .offered)
      (due : s.expires.any (decide <| · ≤ s.at_)) :
      Change lib log s { log with state := some .expired }
  | other (kind : s.kind ∉ ["offered", "read_back", "answered", "readback_verified", "accepted",
        "declined", "reported", "completed", "withdrawn", "superseded", "expired"]) :
      Change lib log s log

/-! ## One arm at a time -/

theorem offered_clean (hk : s.kind = "offered") (h : offered log s = .ok (log', [])) :
    Change lib log s log' := by
  simp only [offered, Except.pure_eq_ok, ite_eq_iff, Prod.mk.injEq, List.append_eq_nil_iff,
    List.cons_ne_nil, and_false, false_or, whenBad_eq_nil, decide_eq_false_iff_not, not_or,
    not_not] at h
  obtain ⟨_, rfl, hstate, hsender⟩ := h
  exact .offered hk hstate hsender

theorem answered_clean (hk : s.kind = "answered") (h : answered log s = .ok (log', [])) :
    Change lib log s log' := by
  simp only [answered, Except.pure_eq_ok, ite_eq_iff, Prod.mk.injEq, List.cons_ne_nil, and_false,
    false_or, not_or, not_not] at h
  obtain ⟨⟨hsender, hlive⟩, rfl, _⟩ := h
  exact .answered hk (by tauto) hsender

theorem withdrawn_clean (hk : s.kind = "withdrawn") (h : withdrawn log s = .ok (log', [])) :
    Change lib log s log' := by
  simp only [withdrawn, Except.pure_eq_ok, ite_eq_iff, Prod.mk.injEq, List.cons_ne_nil, and_false,
    false_or, not_or, not_not] at h
  obtain ⟨⟨hsender, hstate⟩, rfl, _⟩ := h
  exact .withdrawn hk hstate hsender

theorem expired_clean (hk : s.kind = "expired") (h : expired log s = .ok (log', [])) :
    Change lib log s log' := by
  simp only [expired, Except.pure_eq_ok, ite_eq_iff, Prod.mk.injEq, List.cons_ne_nil, and_false,
    false_or, not_or, not_not] at h
  obtain ⟨⟨hstate, hdue, _⟩, rfl, _⟩ := h
  exact .expired hk hstate (by simpa using hdue)

theorem completed_clean (hk : s.kind = "completed") (h : completed log s = .ok (log', [])) :
    Change lib log s log' := by
  simp only [completed, Except.pure_eq_ok, ite_eq_iff, Prod.mk.injEq, List.cons_ne_nil, and_false,
    false_or, not_not, whenBad_eq_nil, beq_eq_false_iff_ne] at h
  obtain ⟨rfl, hstate, hcompleter, hreceiver⟩ := h
  exact .completed hk hstate hcompleter hreceiver

theorem declined_clean (hk : s.kind = "declined") (h : declined lib log s = .ok (log', [])) :
    Change lib log s log' := by
  simp only [declined, Except.bind_eq_ok, Except.pure_eq_ok, ite_eq_iff, Prod.mk.injEq,
    List.cons_ne_nil, and_false, false_or, not_or, not_not] at h
  obtain ⟨⟨hstate, hmay⟩, allowed, hallowed, hyes, rfl, _⟩ := h
  obtain rfl : allowed = true := by simpa using hyes
  exact .declined hk hstate (by simpa using hmay) hallowed

theorem reported_clean (hk : s.kind = "reported") (h : reported lib log s = .ok (log', [])) :
    Change lib log s log' := by
  simp only [reported, Except.bind_eq_ok, Except.pure_eq_ok, ite_eq_iff, Prod.mk.injEq,
    List.cons_ne_nil, and_false, false_or, not_or, not_not] at h
  obtain ⟨⟨hstate, hreceiver⟩, _, _, _, _, _, _, _, _, _, _, _, _, _, _, _, _, _, _, rfl, _⟩ := h
  exact .reported hk hstate hreceiver

theorem superseded_clean (hk : s.kind = "superseded")
    (h : superseded lib log s = .ok (log', [])) : Change lib log s log' := by
  simp only [superseded, Except.bind_eq_ok, Except.pure_eq_ok, ite_eq_iff, Prod.mk.injEq,
    List.cons_ne_nil, and_false, false_or, not_not] at h
  obtain ⟨hstate, error, herror, h⟩ := h
  cases error with
  | some msg => simp [Except.pure_eq_ok] at h
  | none =>
      simp only [Except.pure_eq_ok, Prod.mk.injEq, and_true] at h
      subst h
      exact .superseded hk hstate herror

theorem accepted_clean (hk : s.kind = "accepted") (h : accepted log s = .ok (log', [])) :
    Change lib log s log' := by
  simp only [accepted, Except.bind_eq_ok, Except.pure_eq_ok, ite_eq_iff, Prod.mk.injEq,
    List.append_eq_nil_iff, List.cons_ne_nil, and_false, false_or, not_or, not_not] at h
  obtain ⟨⟨hstate, hmay⟩, hverifier, hcompleter, contradicted, hcon, hcon', failed, hfailed,
    hfailed', gate, hgate, hrest⟩ := h
  obtain rfl : contradicted = false := by simpa using hcon'
  obtain rfl : failed = false := by simpa using hfailed'
  rcases hrest with ⟨hsome, _, _, hnone⟩ | ⟨hnil, _, _, _, _, _, rfl, _⟩
  · simp [hnone] at hsome
  · obtain rfl : gate = [] := by simpa using hnil
    refine .accepted hk hstate (by simpa using hmay) ?_ ?_ hcon hfailed hgate
    · simpa [or_iff_not_imp_left] using hverifier
    · simpa [or_iff_not_imp_left] using hcompleter

theorem readbackVerified_clean (hk : s.kind = "readback_verified")
    (h : readbackVerified log s = .ok (log', [])) : Change lib log s log' := by
  simp only [readbackVerified, Except.bind_eq_ok, Except.pure_eq_ok, ite_eq_iff, Prod.mk.injEq,
    List.cons_ne_nil, and_false, false_or] at h
  obtain ⟨hlive, v, hv, d, hd, h⟩ := h
  cases hknown : log.known d with
  | none => simp [hknown, Except.pure_eq_ok] at h
  | some rb =>
      simp only [hknown, Except.bind_eq_ok, Except.pure_eq_ok, ite_eq_iff, Prod.mk.injEq,
        List.cons_ne_nil, and_false, false_or] at h
      obtain ⟨_, _, _, verifier, _, by_, hby, author, hauthor, _, _, _, _, hself, hunread, hverifier,
        _, _, _, _, _, _, _, _, _, _, _, _, doubt, hdoubt, rfl, _⟩ := h
      refine .readbackVerified hk (by tauto) (Json.item_ok hv) (Json.getStr?_of_strItem hd) hknown
        ?_ ?_ (by simpa using hverifier) hdoubt
      · have hrb : readBackAuthor rb = some author := by
          rw [readBackAuthor, Json.item_ok hby]
          exact Json.item_ok hauthor
        rw [hrb]
        rintro ⟨rfl⟩
        simp at hself
      · simpa [or_iff_not_imp_left] using hunread

theorem readBackAuthor_of_get {doc : Json} {author : Option Json} {name : String}
    (hby : doc.get "by" = .ok author)
    (h : ((author.filter Json.isDict).getD (.obj [])).get "id" = .ok (some (.str name))) :
    readBackAuthor doc = some (.str name) := by
  rw [readBackAuthor, Json.get_ok hby]
  cases author with
  | none => simp [Json.get, pure, Except.pure] at h
  | some a =>
      cases hdict : a.isDict with
      | false => simp [Option.filter, hdict, Json.get, pure, Except.pure] at h
      | true =>
          simp only [Option.filter, hdict, if_true, Option.getD_some] at h
          exact Json.get_ok h

theorem readBack_clean (hk : s.kind = "read_back") (h : readBack lib log s = .ok (log', [])) :
    Change lib log s log' := by
  simp only [readBack, Except.bind_eq_ok, Except.pure_eq_ok, ite_eq_iff, Prod.mk.injEq,
    List.cons_ne_nil, and_false, false_or] at h
  obtain ⟨hguard, ref, href, media, _, h⟩ := h
  cases hrecord : s.record? with
  | none => simp [hrecord, Except.pure_eq_ok] at h
  | some doc =>
      simp only [hrecord, Except.bind_eq_ok, Except.pure_eq_ok, ite_eq_iff, Prod.mk.injEq,
        List.cons_ne_nil, List.append_eq_nil_iff, List.map_eq_nil_iff, and_false, false_or] at h
      obtain ⟨_, _, _, by_, hby, author, hauthor, kind, _, hroles, problems, _, hrest⟩ := h
      rcases hrest with ⟨hsome, _, _, hnone⟩ | ⟨_, at_, _, made, _, d, hd, rbId, _, hprior, hrest⟩
      · simp [hnone] at hsome
      · obtain ⟨stale, _, hfresh, rfl, hforeign, _⟩ := hrest
        simp only [not_or, not_and_or, not_not] at hguard
        obtain ⟨hlive, hmay, hreceiver⟩ := hguard
        have hid : author = some (.str s.actor) := by
          simp only [whenBad_eq_nil, Bool.or_eq_false_iff, decide_eq_false_iff_not,
            not_not] at hforeign
          exact hforeign.1
        have hdigest : evRefDigest s.ev = some d := by
          rw [evRefDigest, Json.item_ok href]
          exact Json.getStr?_of_strItem hd
        refine .readBack hk hlive (by simpa using hmay) ?_ hrecord hdigest ?_ ?_ ?_
        · intro r hr
          simpa [hr] using hreceiver
        · exact readBackAuthor_of_get hby (by rw [hauthor, hid])
        · simpa [or_iff_not_imp_left] using hroles
        · simp only [Bool.or_eq_true, not_or, List.contains_iff_mem] at hfresh
          exact hfresh.1

theorem runArm_clean (h : runArm lib log s = .ok (log', [])) : Change lib log s log' := by
  unfold runArm at h
  split at h
  · next hk => exact readbackVerified_clean hk h
  · next hk => exact declined_clean hk h
  · next hk => exact reported_clean hk h
  · next hk => exact superseded_clean hk h
  · next hk => exact offered_clean hk h
  · next hk => exact readBack_clean hk h
  · next hk => exact answered_clean hk h
  · next hk => exact accepted_clean hk h
  · next hk => exact completed_clean hk h
  · next hk => exact withdrawn_clean hk h
  · next hk => exact expired_clean hk h
  · simp only [Except.pure_eq_ok, Prod.mk.injEq, and_true] at h
    subst h
    exact .other (by simp_all)

/-! ## The shared guards -/

theorem evActor_of_item {principal : Json} {actor : String}
    (hp : ev.item "actor" = .ok principal) (ha : principal.strItem "id" = .ok actor) :
    evActor ev = some actor := by
  rw [evActor, Json.item_ok hp]
  exact Json.getStr?_of_strItem ha

theorem evTime_of_instant {text : String} {t : Instant} (ht : ev.strItem "at" = .ok text)
    (hi : instant text = .ok t) : evTime ev = some t := by
  rw [evTime, Json.getStr?_of_strItem ht, Option.bind_some, hi]
  rfl

theorem isPermitted_true {recipient : Json} {addressed : Bool} {sender actor : String}
    (h : isPermitted recipient addressed sender actor = .ok true) :
    if addressed then recipient.get? "id" = some (.str actor) else actor ≠ sender := by
  cases addressed with
  | true =>
      simp only [isPermitted, if_true, Except.bind_eq_ok, Except.pure_eq_ok] at h
      obtain ⟨found, hfound, hid⟩ := h
      have hid' : found = some (.str actor) := by simpa using hid
      simpa [hid'] using Json.get_ok hfound
  | false => simpa [isPermitted, Except.pure_eq_ok] using h

theorem stepLocals_ok (h : stepLocals lib handoff ev = .ok s) :
    StepOf handoff ev s ∧ s.resolved = none := by
  simp only [stepLocals, Except.bind_eq_ok, Except.pure_eq_ok] at h
  obtain ⟨tier, htier, sender, hsender, recipient, hto, addressed, haddressed, completer,
    hcompleter, verifier, hverifier, verifierId, hid, verifierId', hid', _, _, kind, hkind,
    principal, hprincipal, actor, hactor, _, _, time, htime, at_, hat, expires, hexpires, may, hmay,
    rfl⟩ := h
  refine ⟨?_, rfl⟩
  constructor
  case kind => exact Json.getStr?_of_strItem hkind
  case actor => exact evActor_of_item hprincipal hactor
  case time => exact evTime_of_instant htime hat
  case tier => exact Json.getStr?_of_strItem htier
  case verifierId =>
    simp only [verifierIdOf, Except.bind_eq_ok]
    exact ⟨verifier, hverifier, verifierId, hid, hid'⟩
  case mayReceive =>
    intro hyes
    simp only at hyes
    subst hyes
    have hmay' := isPermitted_true hmay
    simpa [Json.item_ok hto] using hmay'
  all_goals first | rfl | assumption

/-- The log after the bookkeeping every event shares, before its branch runs. -/
def AhrLog.intake (log : AhrLog) (ev : Json) (eventId : String) (s : Step) : AhrLog :=
  { log with
    count := log.count + 1
    seenIds := Dict.set log.seenIds eventId s.actor
    prevEvent := some ev
    prevAt := some s.at_ }

/-- The event passed every check that does not depend on its kind, and then its branch. -/
structure Admitted (lib : Stdlib) (log : AhrLog) (ev : Json) (target : Option Target) (s : Step)
    (log' : AhrLog) : Prop where
  checked : checkDoc lib ev none = .ok []
  step : StepOf log.handoff ev s
  ref : refError lib ev target = .ok none
  resolved : s.resolved = if ev.has "ref" then target.map (·.resolved) else none
  sameHandoff : ev.get? "handoff_id" = log.handoff.get? "handoff_id"
  seq : ev.get? "seq" = some (.int (log.count + 1))
  monotone : ∀ t, log.prevAt = some t → t ≤ s.at_
  recordDigest : ev.get? "record_digest" = some (.str log.recordDigest)
  live : ∀ st, log.state = some st → st.isTerminal = false
  due : log.state = some .offered → s.expires.any (decide <| · ≤ s.at_) → s.kind = "expired"
  change : ∃ eventId, ev.getStr? "event_id" = some eventId ∧
    Dict.lookup log.seenIds eventId = none ∧ Change lib (log.intake ev eventId s) s log'

theorem step_clean (h : Comms.step lib log ev target = .ok (log', [])) :
    ∃ s, Admitted lib log ev target s log' := by
  simp only [Comms.step, Except.bind_eq_ok, Except.pure_eq_ok, ite_eq_iff, Prod.mk.injEq,
    List.cons_ne_nil, List.append_eq_nil_iff, List.map_eq_nil_iff, and_false, false_or] at h
  obtain ⟨_, bad, hbad, hrest⟩ := h
  rcases hrest with ⟨hsome, _, hnone⟩ | ⟨hnil, kinds, _, s, hs, _, eventId, hid, hnew, chain, _,
    named, hnamed, own, hown, hsame, _, _, created, _, seq, hseq, recorded, hrecorded, hlive, error,
    herror, hrest⟩
  · simp [hnone] at hsome
  · obtain rfl : bad = [] := by simpa using hnil
    obtain rfl : named = own := by simpa using hsame
    obtain ⟨hstep, _⟩ := stepLocals_ok hs
    cases error with
    | some e => simp [Except.pure_eq_ok] at hrest
    | none =>
        simp only [Except.bind_eq_ok, Except.pure_eq_ok, ite_eq_iff, Prod.mk.injEq,
          List.cons_ne_nil, List.append_eq_nil_iff, and_false, false_or, whenBad_eq_nil] at hrest
        obtain ⟨hdue, ⟨after, more⟩, harm, rfl, ⟨⟨⟨⟨_, hseq'⟩, hmono⟩, _⟩, hrecord'⟩, rfl⟩ := hrest
        refine ⟨{ s with resolved := _ }, hbad, ?_, herror, rfl, ?_, ?_, ?_, ?_, ?_, ?_, eventId,
          Json.getStr?_of_strItem hid, by simpa using hnew, runArm_clean harm⟩
        · exact ⟨hstep.event, hstep.record, hstep.kind, hstep.actor, hstep.time, hstep.tier,
            hstep.sender, hstep.addressed, hstep.completer, hstep.verifierId, hstep.expires,
            hstep.mayReceive⟩
        · rw [Json.item_ok hnamed, Json.item_ok hown]
        · rw [Json.item_ok hseq]
          simpa using hseq'
        · intro t ht
          simpa [ht] using hmono
        · rw [Json.item_ok hrecorded]
          simpa using hrecord'
        · intro st hst
          simpa [hst] using hlive
        · intro hoffered hlapsed
          by_contra hkind
          exact hdue ⟨hoffered, hlapsed, hkind⟩

end

end TrwMcp.Comms
