import TrwMcp.Comms.AhrChange
import TrwMcp.Handoff.RoundTrip
import TrwMcp.Lib.Run

/-!
# The acceptance gate over whole runs

The log keeps only summaries: each author's latest read-back, the latest verdict on each read-back,
whether any verdict raised a doubt. `Summarizes` ties them to the history of a run, and
`AcceptanceGate` says what the history before an accepted event must contain. Both are kept by every
admitted event, so the gate holds of every run.
-/

namespace TrwMcp.Comms

open Handoff Lib

/-! ## Histories -/

/-- One line of an event log: the event, and what its `ref` resolved to. -/
structure Entry where
  ev : Json
  target : Option Target

/-- The event is admitted with no violation. -/
def Admits (lib : Stdlib) (log : AhrLog) (e : Entry) (log' : AhrLog) : Prop :=
  step lib log e.ev e.target = .ok (log', [])

namespace Entry

/-- The dict the event's `ref` resolved to. -/
def record? (e : Entry) : Option Json := e.target.bind (·.resolved.dict?)

/-- The digest and the record of the read-back that `author` stored with this event. -/
def readBackBy (author : String) (e : Entry) : Option (String × Json) :=
  if evKind e.ev = some "read_back" ∧ evActor e.ev = some author then do
    return (← evRefDigest e.ev, ← e.record?)
  else none

/-- The verdict this event records. -/
def verdict? (e : Entry) : Option Json :=
  if evKind e.ev = some "readback_verified" then e.ev.get? "verification" else none

/-- The verdict this event records on the read-back with digest `d`. -/
def verdictOn (d : String) (e : Entry) : Option Json :=
  e.verdict?.filter fun v => v.getStr? "readback_digest" = some d

end Entry

def lastReadBack (before : List Entry) (author : String) : Option (String × Json) :=
  latest (Entry.readBackBy author) before

def lastVerdict (before : List Entry) (d : String) : Option Json :=
  latest (Entry.verdictOn d) before

/-- Some entry of `rb.reverified` has this result. -/
def HasResult (rb : Json) (result : String) : Prop :=
  ∃ entries, rb.get? "reverified" = some (.arr entries) ∧
    ∃ r ∈ entries, r.get? "result" = some (.str result)

/-- A failed verdict, or a judge's with low confidence. -/
def Doubtful (v : Json) : Prop :=
  v.get? "outcome" = some (.str "fail") ∨
    v.get? "method" = some (.str "judge") ∧ v.get? "confidence" = some (.str "low")

/-- The tier or the record itself asks for a read-back before acceptance. -/
def NeedsReadBack (handoff : Json) : Prop :=
  handoff.getStr? "tier" = some "standard" ∨ handoff.getStr? "tier" = some "critical" ∨
    (handoff.get? "readback").bind (·.get? "required") = some (.bool true)

/-- What must have been stored before the receiver accepted. -/
structure AcceptanceGate (handoff : Json) (before : List Entry) (receiver : String) : Prop where
  required : NeedsReadBack handoff → ∃ d rb, lastReadBack before receiver = some (d, rb) ∧
    rb.get? "disposition" = some (.str "ready") ∧ ¬HasResult rb "contradicted"
  uncontradicted : ∀ d rb, lastReadBack before receiver = some (d, rb) →
    ¬HasResult rb "contradicted" ∧
      ∀ v, lastVerdict before d = some v → v.get? "outcome" ≠ some (.str "fail")
  critical : handoff.getStr? "tier" = some "critical" → ∃ d rb v,
    lastReadBack before receiver = some (d, rb) ∧ lastVerdict before d = some v ∧
      (v.get? "outcome" = some (.str "pass") ∨ v.get? "outcome" = some (.str "pass_with_flags")) ∧
      (v.get? "method" = some (.str "judge") ∨ v.get? "method" = some (.str "human")) ∧
      (v.get? "confidence" = some (.str "low") → v.get? "method" = some (.str "human")) ∧
      ((∃ e ∈ before, ∃ w, e.verdict? = some w ∧ Doubtful w) →
        v.get? "method" = some (.str "human")) ∧
      (HasResult rb "not_checkable" → v.get? "method" = some (.str "human"))

/-! ## What the guards read -/

theorem anyResult_iff {rb : Json} {result : String} {b : Bool} (h : anyResult rb result = .ok b) :
    HasResult rb result ↔ b = true := by
  simp only [anyResult, Except.bind_eq_ok] at h
  obtain ⟨entries, hentries, hany⟩ := h
  have hget := Json.listItem_ok hentries
  have hpure := @Except.anyM_eq_ok _ _ _ _ _ 
    (fun r => decide (r.get? "result" = some (.str result))) (fun r _ c hc => by
      simp only [Except.bind_eq_ok, Except.pure_eq_ok] at hc
      obtain ⟨found, hfound, hc⟩ := hc
      rw [Json.item_ok hfound, ← hc]
      simp) hany
  rw [← hpure, HasResult, hget]
  simp

theorem raisesDoubt_iff {v : Json} {b : Bool} (h : raisesDoubt v = .ok b) :
    Doubtful v ↔ b = true := by
  simp only [raisesDoubt, Except.bind_eq_ok, Except.pure_eq_ok, ite_eq_iff] at h
  obtain ⟨outcome, houtcome, ⟨hfail, rfl⟩ | ⟨hfail, method, hmethod, hrest⟩⟩ := h
  · simp [Doubtful, Json.item_ok houtcome, hfail]
  · rcases hrest with ⟨hjudge, confidence, hconfidence, rfl⟩ | ⟨hjudge, rfl⟩
    · simp [Doubtful, Json.item_ok houtcome, Json.item_ok hmethod, Json.get_ok hconfidence, hfail,
        hjudge]
    · simp [Doubtful, Json.item_ok houtcome, Json.item_ok hmethod, hfail, hjudge]

theorem passes_iff {v : Json} {b : Bool} (h : passes v = .ok b) :
    (v.get? "outcome" = some (.str "pass") ∨ v.get? "outcome" = some (.str "pass_with_flags")) ↔
      b = true := by
  simp only [passes, Except.bind_eq_ok, Except.pure_eq_ok] at h
  obtain ⟨outcome, houtcome, rfl⟩ := h
  simp [Json.item_ok houtcome]

theorem truthy_of_get? {v x : Json} {k : String} (h : v.get? k = some x) : v.truthy := by
  cases v with
  | obj ms =>
      cases ms with
      | nil => simp [Json.get?] at h
      | cons m ms => rfl
  | _ => simp [Json.get?, Json.members] at h

theorem readbackRequired_of_needs {handoff : Json} {tier : String} {b : Bool}
    (htier : handoff.getStr? "tier" = some tier) (h : readbackRequired handoff tier = .ok b)
    (hneeds : NeedsReadBack handoff) : b = true := by
  simp only [readbackRequired, Except.bind_eq_ok, Except.pure_eq_ok, ite_eq_iff] at h
  rcases h with ⟨_, rfl⟩ | ⟨hother, readback, hreadback, required, hrequired, rfl⟩
  · rfl
  · simp only [not_or] at hother
    simp only [NeedsReadBack, htier, Option.some.injEq] at hneeds
    rcases hneeds with hstandard | hcritical | hbool
    · exact absurd hstandard hother.1
    · exact absurd hcritical hother.2
    · cases hr : handoff.get? "readback" with
      | none => simp [hr] at hbool
      | some r =>
          simp only [Json.getDict, Except.bind_eq_ok, Except.pure_eq_ok] at hreadback
          obtain ⟨found, hfound, rfl⟩ := hreadback
          rw [Json.get_ok hfound] at hr
          subst hr
          simp only [Option.getD_some] at hrequired
          have hget := Json.get_ok hrequired
          rw [Json.get_ok hfound, Option.bind_some] at hbool
          rw [hbool] at hget
          rw [← hget]
          rfl

/-! ## The gate at an accepted event -/

section

variable {lib : Stdlib} {log log' : AhrLog} {s : Step} {handoff : Json} {entries : List Entry}

theorem latestHasResult_false {author : String} {mine : ReadBack} {result : String}
    (h : latestHasResult log author result = .ok false)
    (hmine : Dict.lookup log.latestRb author = some mine) : ¬HasResult mine.doc result := by
  rw [latestHasResult, hmine] at h
  simp [anyResult_iff h]

theorem latestFailed_false {author : String} {mine : ReadBack} {v : Json}
    (h : latestFailed log author = .ok false)
    (hmine : Dict.lookup log.latestRb author = some mine)
    (hv : Dict.lookup log.verdict mine.digest = some v) :
    v.get? "outcome" ≠ some (.str "fail") := by
  intro houtcome
  simp only [latestFailed, hmine, Option.bind_some, hv, Except.bind_eq_ok, Except.pure_eq_ok] at h
  obtain ⟨outcome, hitem, hfalse⟩ := h
  have hfail : outcome = .str "fail" := by
    rw [Json.item_ok hitem] at houtcome
    exact Option.some.inj houtcome
  simp [truthy_of_get? houtcome, hfail] at hfalse

theorem readbackGate_nil (h : readbackGate log s = .ok []) :
    ∃ mine, Dict.lookup log.latestRb s.actor = some mine ∧
      mine.doc.get? "disposition" = some (.str "ready") ∧ ¬HasResult mine.doc "contradicted" ∧
      (s.tier = "critical" → ∃ b, anyResult mine.doc "not_checkable" = .ok b ∧
        admits log mine (log.anyFail || b) = .ok true) := by
  cases hmine : Dict.lookup log.latestRb s.actor with
  | none => simp [readbackGate, hmine, Except.pure_eq_ok] at h
  | some mine =>
      simp only [readbackGate, hmine, Except.bind_eq_ok, Except.pure_eq_ok, ite_eq_iff,
        List.cons_ne_nil, and_false, false_or] at h
      obtain ⟨disposition, hdisposition, contradicted, hcon, hready, hrest⟩ := h
      simp only [Bool.or_eq_true, decide_eq_true_eq, not_or, not_not] at hready
      refine ⟨mine, rfl, ?_, ?_, fun htier => ?_⟩
      · rw [Json.item_ok hdisposition, hready.1]
      · simp [anyResult_iff hcon, hready.2]
      · rcases hrest with ⟨hother, _⟩ | ⟨_, b, hb, ok, hok, hrest⟩
        · exact absurd htier hother
        · obtain ⟨hyes, _⟩ | ⟨_, _, _, ⟨⟩⟩ := hrest
          exact ⟨b, hb, by rw [hok, hyes]⟩

theorem admissible_true {v : Json} {needsHuman : Bool} (h : admissible v needsHuman = .ok true) :
    (v.get? "outcome" = some (.str "pass") ∨ v.get? "outcome" = some (.str "pass_with_flags")) ∧
      (v.get? "method" = some (.str "judge") ∨ v.get? "method" = some (.str "human")) ∧
      (v.get? "confidence" = some (.str "low") → v.get? "method" = some (.str "human")) ∧
      (needsHuman = true → v.get? "method" = some (.str "human")) := by
  simp only [admissible, Except.bind_eq_ok, Except.pure_eq_ok, ite_eq_iff, Bool.false_eq_true,
    and_false, false_or] at h
  obtain ⟨_, method, hmethod, passing, hpassing, hpass, method', hmethod', hjudge, confidence,
    hconfidence, hlow, hhuman⟩ := h
  obtain rfl : method = method' := by rw [hmethod] at hmethod'; exact Except.ok.inj hmethod'
  rw [Json.item_ok hmethod, Json.get_ok hconfidence]
  refine ⟨(passes_iff hpassing).mpr (by simpa using hpass), ?_, ?_, ?_⟩
  · by_cases hh : method = .str "human"
    · exact .inr (by rw [hh])
    · exact .inl (by simpa [hh] using hjudge)
  · intro hc
    simpa [hc] using hlow
  · intro hn
    simpa [hn] using hhuman

/-- The summaries the log keeps, and the history they summarize. -/
structure Summarizes (handoff : Json) (entries : List Entry) (log : AhrLog) : Prop where
  handoff : log.handoff = handoff
  latest : ∀ author, (Dict.lookup log.latestRb author).map (fun rb => (rb.digest, rb.doc)) =
    lastReadBack entries author
  verdict : ∀ d, Dict.lookup log.verdict d = lastVerdict entries d
  doubt : (∃ e ∈ entries, ∃ v, e.verdict? = some v ∧ Doubtful v) → log.anyFail = true

theorem lastReadBack_of_lookup (hsum : Summarizes handoff entries log) {author : String}
    {mine : ReadBack} (hmine : Dict.lookup log.latestRb author = some mine) :
    lastReadBack entries author = some (mine.digest, mine.doc) := by
  rw [← hsum.latest, hmine]
  rfl

theorem acceptanceGate_of_guards (hsum : Summarizes handoff entries log)
    (htier : handoff.getStr? "tier" = some s.tier) (hhandoff : s.handoff = handoff)
    (hcon : latestHasResult log s.actor "contradicted" = .ok false)
    (hfailed : latestFailed log s.actor = .ok false) (hgate : acceptanceGate log s = .ok []) :
    AcceptanceGate handoff entries s.actor := by
  simp only [acceptanceGate, Except.bind_eq_ok, hhandoff] at hgate
  obtain ⟨needed, hneeded, hgate⟩ := hgate
  have hready : NeedsReadBack handoff → readbackGate log s = .ok [] := by
    intro hneeds
    have hyes := readbackRequired_of_needs htier hneeded hneeds
    simpa [hyes] using hgate
  constructor
  case required =>
    intro hneeds
    obtain ⟨mine, hmine, hdisposition, hclean, _⟩ := readbackGate_nil (hready hneeds)
    exact ⟨_, _, lastReadBack_of_lookup hsum hmine, hdisposition, hclean⟩
  case uncontradicted =>
    intro d rb hlast
    rw [← hsum.latest] at hlast
    obtain ⟨mine, hmine, heq⟩ := Option.map_eq_some_iff.mp hlast
    obtain ⟨rfl, rfl⟩ := Prod.mk.inj heq
    refine ⟨latestHasResult_false hcon hmine, fun v hv => ?_⟩
    rw [← hsum.verdict] at hv
    exact latestFailed_false hfailed hmine hv
  case critical =>
    intro hcritical
    obtain ⟨mine, hmine, _, _, hverdict⟩ := readbackGate_nil (hready (.inr (.inl hcritical)))
    have htier' : s.tier = "critical" := by
      rw [htier] at hcritical
      exact Option.some.inj hcritical
    obtain ⟨b, hb, hadmits⟩ := hverdict htier'
    cases hv : Dict.lookup log.verdict mine.digest with
    | none => simp [admits, hv, Except.pure_eq_ok] at hadmits
    | some v =>
        rw [admits, hv] at hadmits
        obtain ⟨houtcome, hmethod, hlow, hhuman⟩ := admissible_true hadmits
        refine ⟨_, _, v, lastReadBack_of_lookup hsum hmine, ?_, houtcome, hmethod, hlow, ?_, ?_⟩
        · rw [← hsum.verdict, hv]
        · intro hdoubt
          exact hhuman (by simp [hsum.doubt hdoubt])
        · intro hunchecked
          exact hhuman (by simp [(anyResult_iff hb).mp hunchecked])

/-! ## The summaries follow the history -/

theorem readBackBy_eq_none {e : Entry} (hk : evKind e.ev ≠ some "read_back") (author : String) :
    e.readBackBy author = none := by
  simp [Entry.readBackBy, hk]

theorem verdict?_eq_none {e : Entry} (hk : evKind e.ev ≠ some "readback_verified") :
    e.verdict? = none := by
  simp [Entry.verdict?, hk]

theorem verdictOn_eq_none {e : Entry} (hk : evKind e.ev ≠ some "readback_verified") (d : String) :
    e.verdictOn d = none := by
  simp [Entry.verdictOn, verdict?_eq_none hk]

theorem lastReadBack_snoc (e : Entry) (author : String) :
    lastReadBack (entries ++ [e]) author =
      (e.readBackBy author).or (lastReadBack entries author) := latest_snoc _ _ _

theorem lastVerdict_snoc (e : Entry) (d : String) :
    lastVerdict (entries ++ [e]) d = (e.verdictOn d).or (lastVerdict entries d) :=
  latest_snoc _ _ _

theorem record?_of_admitted {e : Entry} {d : String} (h : Admitted lib log e.ev e.target s log')
    (hd : evRefDigest e.ev = some d) : e.record? = s.record? := by
  have href : e.ev.has "ref" := by
    rw [Json.has]
    cases hr : e.ev.get? "ref" with
    | none => simp [evRefDigest, hr] at hd
    | some r => rfl
  rw [Entry.record?, Step.record?, h.resolved, if_pos href, Option.bind_map]
  rfl

theorem Summarizes.other {e : Entry} (hsum : Summarizes handoff entries log)
    (hrb : evKind e.ev ≠ some "read_back") (hv : evKind e.ev ≠ some "readback_verified")
    (h₁ : log'.handoff = log.handoff) (h₂ : log'.latestRb = log.latestRb)
    (h₃ : log'.verdict = log.verdict) (h₄ : log'.anyFail = log.anyFail) :
    Summarizes handoff (entries ++ [e]) log' := by
  constructor
  · rw [h₁, hsum.handoff]
  · intro author
    rw [h₂, hsum.latest, lastReadBack_snoc, readBackBy_eq_none hrb, Option.none_or]
  · intro d
    rw [h₃, hsum.verdict, lastVerdict_snoc, verdictOn_eq_none hv, Option.none_or]
  · rintro ⟨e', hmem, v, hev, hdoubt⟩
    rw [h₄]
    rcases List.mem_append.mp hmem with hin | hlast
    · exact hsum.doubt ⟨e', hin, v, hev, hdoubt⟩
    · obtain rfl : e' = e := by simpa using hlast
      rw [verdict?_eq_none hv] at hev
      cases hev

theorem Summarizes.step {e : Entry} (hsum : Summarizes handoff entries log)
    (h : Admitted lib log e.ev e.target s log') : Summarizes handoff (entries ++ [e]) log' := by
  obtain ⟨eventId, _, _, hchange⟩ := h.change
  have hkind := h.step.kind
  cases hchange with
  | @readBack doc d rbIds kind _ _ _ record digest _ _ _ =>
      rw [h.step.event] at digest
      have hrb : ∀ author, e.readBackBy author =
          if s.actor = author then some (d, doc) else none := by
        intro author
        simp [Entry.readBackBy, hkind, kind, h.step.actor, digest,
          record?_of_admitted h digest, record]
      have hv : evKind e.ev ≠ some "readback_verified" := by simp [hkind, kind]
      constructor
      · exact hsum.handoff
      · intro author
        rw [lastReadBack_snoc, hrb, ← hsum.latest]
        by_cases ha : s.actor = author
        · simp [ha, AhrLog.intake]
        · simp [ha, AhrLog.intake, Dict.lookup_set_ne _ (Ne.symm ha)]
      · intro d'
        rw [lastVerdict_snoc, verdictOn_eq_none hv, Option.none_or, ← hsum.verdict]
        rfl
      · rintro ⟨e', hmem, v, hev, hdoubt⟩
        rcases List.mem_append.mp hmem with hin | hlast
        · exact hsum.doubt ⟨e', hin, v, hev, hdoubt⟩
        · obtain rfl : e' = e := by simpa using hlast
          rw [verdict?_eq_none hv] at hev
          cases hev
  | @readbackVerified v rb d doubt kind _ verification digest _ _ _ _ raises =>
      rw [h.step.event] at verification
      have hev : e.verdict? = some v := by simp [Entry.verdict?, hkind, kind, verification]
      have hrb : evKind e.ev ≠ some "read_back" := by simp [hkind, kind]
      constructor
      · exact hsum.handoff
      · intro author
        rw [lastReadBack_snoc, readBackBy_eq_none hrb, Option.none_or, ← hsum.latest]
        rfl
      · intro d'
        rw [lastVerdict_snoc, ← hsum.verdict, Entry.verdictOn, hev]
        by_cases hd : d = d'
        · simp [Option.filter, digest, hd]
        · simp [Option.filter, digest, hd, Dict.lookup_set_ne _ (Ne.symm hd), AhrLog.intake]
      · rintro ⟨e', hmem, w, hew, hdoubt⟩
        rcases List.mem_append.mp hmem with hin | hlast
        · simp [AhrLog.intake, hsum.doubt ⟨e', hin, w, hew, hdoubt⟩]
        · obtain rfl : e' = e := by simpa using hlast
          rw [hev] at hew
          obtain rfl := Option.some.inj hew
          simp [(raisesDoubt_iff raises).mp hdoubt]
  | other kind =>
      refine hsum.other ?_ ?_ rfl rfl rfl rfl <;> rw [hkind] <;> intro hk <;>
        simp [Option.some.inj hk] at kind
  | _ kind => exact hsum.other (by simp [hkind, kind]) (by simp [hkind, kind]) rfl rfl rfl rfl

/-! ## The gate over runs -/

/-- The receiver's state: nobody before the record was accepted, then the one who accepted. -/
def isHeld (log : AhrLog) : Prop :=
  log.state = some .accepted ∨ log.state = some .reported ∨ log.state = some .completed

/-- Every accepted event of the history had the gate, and the log names its actor. -/
structure Gated (handoff : Json) (entries : List Entry) (log : AhrLog) : Prop where
  summary : Summarizes handoff entries log
  held : ∀ r, log.receiver = some r → isHeld log
  reached : isHeld log → ∃ e ∈ entries, evKind e.ev = some "accepted"
  gate : ∀ before e after, entries = before ++ e :: after → evKind e.ev = some "accepted" →
    ∃ r, evActor e.ev = some r ∧ log.receiver = some r ∧ AcceptanceGate handoff before r

theorem gate_snoc {e : Entry} (hg : Gated handoff entries log) (hne : evKind e.ev ≠ some "accepted")
    (hreceiver : log'.receiver = log.receiver) (before : List Entry) (e' : Entry) (after : List Entry)
    (hsplit : entries ++ [e] = before ++ e' :: after) (hacc : evKind e'.ev = some "accepted") :
    ∃ r, evActor e'.ev = some r ∧ log'.receiver = some r ∧ AcceptanceGate handoff before r := by
  rcases snoc_split hsplit with ⟨_, _, rfl⟩ | ⟨after', _, hentries⟩
  · exact absurd hacc hne
  · rw [hreceiver]
    exact hg.gate before e' after' hentries hacc

theorem Gated.step {e : Entry} (hg : Gated handoff entries log)
    (h : Admitted lib log e.ev e.target s log') : Gated handoff (entries ++ [e]) log' := by
  have hsum := hg.summary.step h
  obtain ⟨eventId, _, _, hchange⟩ := h.change
  have hkind := h.step.kind
  have hold : isHeld log → ∃ e' ∈ entries ++ [e], evKind e'.ev = some "accepted" := by
    intro hheld
    obtain ⟨e', hmem, he'⟩ := hg.reached hheld
    exact ⟨e', List.mem_append_left _ hmem, he'⟩
  -- whoever held the record cannot be in a state that only an offered record leads to
  have hnone : log.state = some .offered → ∀ r, log.receiver ≠ some r := by
    intro hstate r hr
    have := hg.held r hr
    simp [isHeld, hstate] at this
  cases hchange with
  | accepted kind offered _ _ _ contradicted failed gate =>
      refine ⟨hsum, fun _ _ => .inl rfl, fun _ => ⟨e, by simp, by rw [hkind, kind]⟩, ?_⟩
      intro before e' after hsplit hacc
      rcases snoc_split hsplit with ⟨_, rfl, rfl⟩ | ⟨after', _, hentries⟩
      · refine ⟨s.actor, h.step.actor, rfl, ?_⟩
        have hsum' : Summarizes handoff before (log.intake e'.ev eventId s) :=
          ⟨hg.summary.handoff, hg.summary.latest, hg.summary.verdict, hg.summary.doubt⟩
        have htier := h.step.tier
        have hrecord := h.step.record
        rw [hg.summary.handoff] at htier hrecord
        exact acceptanceGate_of_guards hsum' htier hrecord contradicted failed gate
      · obtain ⟨r, _, hr, _⟩ := hg.gate before e' after' hentries hacc
        exact absurd hr (hnone offered r)
  | reported kind state receiver =>
      refine ⟨hsum, fun _ _ => .inr (.inl rfl), fun _ => hold (.inl state), ?_⟩
      exact gate_snoc hg (by simp [hkind, kind]) rfl
  | completed kind state _ _ =>
      refine ⟨hsum, fun _ _ => .inr (.inr rfl), fun _ => hold (.inr (.inl state)), ?_⟩
      exact gate_snoc hg (by simp [hkind, kind]) rfl
  | readBack kind =>
      exact ⟨hsum, hg.held, hold, gate_snoc hg (by simp [hkind, kind]) rfl⟩
  | answered kind =>
      exact ⟨hsum, hg.held, hold, gate_snoc hg (by simp [hkind, kind]) rfl⟩
  | readbackVerified kind =>
      exact ⟨hsum, hg.held, hold, gate_snoc hg (by simp [hkind, kind]) rfl⟩
  | other kind =>
      refine ⟨hsum, hg.held, hold, gate_snoc hg ?_ rfl⟩
      rw [hkind]
      intro hk
      simp [Option.some.inj hk] at kind
  | offered kind fresh _ =>
      refine ⟨hsum, fun r hr => ?_, fun hheld => ?_, gate_snoc hg (by simp [hkind, kind]) rfl⟩
      · have := hg.held r hr
        simp_all [isHeld, AhrLog.intake]
      · simp [isHeld] at hheld
  | declined kind offered _ _ | withdrawn kind offered _ | superseded kind offered _
  | expired kind offered _ =>
      refine ⟨hsum, fun r hr => absurd hr (hnone offered r), fun hheld => ?_,
        gate_snoc hg (by simp [hkind, kind]) rfl⟩
      simp [isHeld] at hheld

theorem start_clean {lib : Stdlib} {handoff : Json} {log : AhrLog}
    (h : start lib handoff = .ok (some log, [])) :
    checkDoc lib handoff none = .ok [] ∧ ∃ d, digest lib handoff = .ok d ∧
      log = { handoff, recordDigest := d } := by
  simp only [start, Except.bind_eq_ok, Except.pure_eq_ok, ite_eq_iff, Prod.mk.injEq,
    reduceCtorEq, false_and, and_false, false_or, List.map_eq_nil_iff, Option.some.injEq,
    and_true] at h
  obtain ⟨errs, herrs, hnil, d, hd, rfl⟩ := h
  obtain rfl : errs = [] := by simpa using hnil
  exact ⟨herrs, d, hd, rfl⟩

theorem gated_start {d : String} : Gated handoff [] { handoff, recordDigest := d } := by
  refine ⟨⟨rfl, fun _ => rfl, fun _ => rfl, by simp⟩, by simp, by simp [isHeld], by simp⟩

end

/-- Categories of ASCII characters, and the hash of the sample's 625 canonical bytes. -/
def sampleLib : Stdlib where
  sha256 raw :=
    if raw.size = 625 then "d54403480fc678865be0ca068e33fb89428c7c4b65e25d52120ce7197012c882"
    else ""
  nfkc := id
  nfc := id
  casefold s := String.ofList (s.toList.map Char.toLower)
  category c :=
    if c.isUpper then "Lu" else if c.isLower then "Ll" else if c.isDigit then "Nd"
    else if c.toNat < 32 then "Cc" else if c = ' ' then "Zs" else "Po"
  jsonOther _ := .error .unicodeDecodeError
  errorText _ := ""
  repr _ := ""
  schemaMessage _ _ _ := ""
  floatIsInteger _ := false
  floatCompare _ _ := none
  fnmatchcase name pattern := name == pattern

def sampleHandoff : Json := .obj
  [("ahr", .str "1.0-rc.2"), ("as_of", .obj [("at", .str "2025-01-01T00:00:00Z")]),
    ("claims", .arr [.obj [("id", .str "c-1"), ("label", .str "unknown"),
      ("text", .str "parser fails")]]),
    ("created_at", .str "2025-01-01T00:00:00Z"),
    ("from", .obj [("id", .str "alice"), ("kind", .str "agent")]), ("handoff_id", .str "h-1"),
    ("next_actions", .arr [.obj [("action", .str "edit parser"), ("done_when", .str "merged"),
      ("id", .str "a-1")]]),
    ("next_read", .arr [.obj [("uri", .str "file:parser.py"), ("why", .str "entry point")]]),
    ("not_done", .arr [.str "review"]),
    ("objective", .obj [("done_when", .arr [.str "tests pass"]),
      ("goal", .str "fix the parser")]),
    ("risks", .arr [.obj [("id", .str "r-1"), ("severity", .str "low"),
      ("text", .str "regression")]]),
    ("subject", .str "s-1"), ("tier", .str "minimal"), ("tier_reason", .str "small change"),
    ("to", .obj [("id", .str "bob"), ("kind", .str "agent")]), ("type", .str "handoff"),
    ("unknowns", .arr [.str "scope"])]

def sampleLog : AhrLog where
  handoff := sampleHandoff
  recordDigest := "sha256:d54403480fc678865be0ca068e33fb89428c7c4b65e25d52120ce7197012c882"

/-- An event on the sample record, with the fields its kind adds. -/
def sampleEvent (id event actor time : String) (seq : Int) (more : List (String × Json)) : Entry where
  ev := .obj ([("ahr", .str "1.0-rc.2"), ("type", .str "event"), ("event_id", .str id),
    ("handoff_id", .str "h-1"), ("record_digest", .str sampleLog.recordDigest), ("seq", .int seq),
    ("event", .str event), ("actor", .obj [("id", .str actor), ("kind", .str "agent")]),
    ("at", .str time)] ++ more)
  target := none

def sampleOffer : Entry := sampleEvent "e-1" "offered" "alice" "2025-01-01T00:00:01Z" 1 []

def sampleAccept : Entry := sampleEvent "e-2" "accepted" "bob" "2025-01-01T00:00:02Z" 2
  [("effective_at", .str "2025-01-01T00:00:02Z")]

/-- What the schema and the digest read of the record. -/
structure HandoffReads : Prop where
  safe : sampleHandoff.isSafe
  length : ((render sampleHandoff).flatMap String.utf8EncodeChar).length = 625
  canon : sampleHandoff.canon = sampleHandoff
  without : withoutIntegrity sampleHandoff = sampleHandoff

theorem sampleHandoff_reads : HandoffReads where
  safe := by decide +kernel
  length := by decide +kernel
  canon := by decide +kernel
  without := by decide +kernel

theorem sampleHandoff_size : (String.ofList (render sampleHandoff)).toUTF8.size = 625 := by
  have reads := sampleHandoff_reads
  have hbytes (l : List Char) :
      (String.ofList l).toUTF8 = (l.flatMap String.utf8EncodeChar).toByteArray := rfl
  rw [hbytes, List.size_toByteArray, reads.length]

theorem sampleHandoff_valid : validate sampleLib sampleHandoff none = .ok [] := by
  have reads := sampleHandoff_reads
  unfold validate validateWith l1Findings
  rw [jcs_eq reads.safe]
  dsimp only
  rw [sampleHandoff_size]
  exact Except.ok_of_toOption (by decide +kernel)

theorem sampleHandoff_digest : digest sampleLib sampleHandoff = .ok sampleLog.recordDigest := by
  have reads := sampleHandoff_reads
  have hsha : ∀ raw : ByteArray, raw.size = 625 → sampleLib.sha256 raw =
      "d54403480fc678865be0ca068e33fb89428c7c4b65e25d52120ce7197012c882" := fun raw h => if_pos h
  rw [digest, reads.without, jcs_eq reads.safe, Except.bind_eq_ok]
  exact ⟨_, rfl, by rw [hsha _ sampleHandoff_size]; rfl⟩

theorem sample_start : start sampleLib sampleHandoff = .ok (some sampleLog, []) := by
  have hcheck : checkDoc sampleLib sampleHandoff none = .ok [] := by
    rw [checkDoc, sampleHandoff_valid]
    rfl
  simp only [start, Except.bind_eq_ok, Except.pure_eq_ok, ite_eq_iff]
  exact ⟨[], hcheck, .inr ⟨by simp, _, sampleHandoff_digest, rfl⟩⟩

/-- The log after the last of some events that were all admitted. -/
@[grind =] def afterAll (lib : Stdlib) (log : AhrLog) : List Entry → Option AhrLog
  | [] => some log
  | e :: es => match step lib log e.ev e.target with
    | .ok (log', []) => afterAll lib log' es
    | _ => none

theorem run_of_afterAll {lib : Stdlib} {log log' : AhrLog} {es : List Entry}
    (h : afterAll lib log es = some log') : Run (Admits lib) log es log' := by
  induction es generalizing log with
  | nil =>
      obtain rfl := Option.some.inj h
      exact .nil
  | cons e es ih =>
      unfold afterAll at h
      split at h
      · next next hstep => exact (Run.single hstep).append (ih h)
      · cases h

theorem sample_run : ∃ log, Run (Admits sampleLib) sampleLog [sampleOffer, sampleAccept] log ∧
    log.state = some .accepted ∧ log.receiver = some "bob" := by
  have h : (afterAll sampleLib sampleLog [sampleOffer, sampleAccept]).any
      (fun log => decide (log.state = some .accepted ∧ log.receiver = some "bob")) = true := by
    decide +kernel
  obtain ⟨log, hrun, hlog⟩ := (Option.any_eq_true _ _).mp h
  exact ⟨log, run_of_afterAll hrun, by simpa using hlog⟩

end TrwMcp.Comms
