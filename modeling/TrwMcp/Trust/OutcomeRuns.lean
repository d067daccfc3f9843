import TrwMcp.Trust.Outcome

/-!
# Each outcome counts once

A call either leaves the registry and the audit log as they are, or binds a new outcome, raises both
counters by one, and goes on to the audit log. Along a run the bindings are only appended to, and
the counters are ahead of the base by as many as there are new ones.
-/

namespace TrwMcp.Trust

open Lib State

section

variable {T : Type} {lib : Stdlib T} {config : TrustConfig}

/-! ## What the registry says -/

structure View where
  sessionCount : Option Int
  successfulSessions : Option Int
  bound : Dict String String

def viewOf (lib : Stdlib T) (content : T) : View :=
  match readYaml lib content with
  | none => ⟨none, none, []⟩
  | some registry =>
      ⟨count lib (coerceProject registry) "session_count",
        count lib (coerceProject registry) "successful_sessions",
        readConsumedMap lib (coerceProject registry)⟩

/-- A registry that is not there yet says what the one to be created says. -/
def World.view (lib : Stdlib T) (w : World T) : View :=
  viewOf lib (w.registry.getD (lib.dump defaultRegistry))

theorem readConsumedMap_nodup (lib : Stdlib T) (project : Mapping) :
    ((readConsumedMap lib project).map (·.1)).Nodup := by
  unfold readConsumedMap
  split
  · exact Dict.keys_ofPairs_nodup _
  · exact List.nodup_nil

theorem viewOf_nodup (lib : Stdlib T) (content : T) :
    ((viewOf lib content).bound.map (·.1)).Nodup := by
  unfold viewOf
  split
  · exact List.nodup_nil
  · exact readConsumedMap_nodup lib _

theorem readConsumedMap_written {project : Mapping} {consumed : Dict String String}
    (hn : (consumed.map (·.1)).Nodup)
    (h : Dict.lookup project consumedIdsKey =
      some (.map (consumed.map fun m => (Key.str m.1, Yaml.str m.2)))) :
    readConsumedMap lib project = consumed := by
  have hpairs : (consumed.map fun m => (Key.str m.1, Yaml.str m.2)).map
      (fun m => (m.1.text, str lib m.2)) = consumed := by
    simp [Function.comp_def, Key.text, str]
  rw [readConsumedMap, h]
  simp only [hpairs]
  exact Dict.ofPairs_eq_self hn

theorem viewOf_counted (hlib : lib.Lawful) {registry project : Mapping}
    {consumed : Dict String String} {call : Call} {oldCount oldSucc : Int}
    (hn : (consumed.map (·.1)).Nodup) (hnew : Dict.lookup consumed call.trustOutcomeId = none) :
    viewOf lib (lib.dump (Dict.set registry (.str "project")
        (.map (countOutcome config call project consumed oldCount oldSucc)))) =
      ⟨some (oldCount + 1), some (oldSucc + 1),
        consumed ++ [(call.trustOutcomeId, call.receiptSetDigest)]⟩ := by
  have hset : Dict.set consumed call.trustOutcomeId call.receiptSetDigest =
      consumed ++ [(call.trustOutcomeId, call.receiptSetDigest)] :=
    Dict.set_eq_append (Dict.lookup_eq_none_iff.mp hnew) _
  have hbound : readConsumedMap lib (countOutcome config call project consumed oldCount oldSucc) =
      Dict.set consumed call.trustOutcomeId call.receiptSetDigest :=
    readConsumedMap_written (Dict.keys_set_nodup hn _ _) (Dict.lookup_set_self _ _ _)
  have hread : readYaml lib (lib.dump (Dict.set registry (.str "project")
      (.map (countOutcome config call project consumed oldCount oldSucc)))) =
        some (Dict.set registry (.str "project")
          (.map (countOutcome config call project consumed oldCount oldSucc))) := by
    rw [readYaml, hlib]
  rw [viewOf, hread]
  simp only [coerceProject, Dict.lookup_set_self, hbound, hset]
  congr 1
  · simp [count, countOutcome, Dict.lookup_set, consumedIdsKey, asInt]
  · simp [count, countOutcome, Dict.lookup_set, consumedIdsKey, asInt]

/-! ## One call -/

/-- A reply that counts nothing. -/
def Reply.plain : Reply → Prop
  | .returned r => r.incremented = false
  | _ => True

theorem settled_plain {call : Call} {status : ConsumeStatus} {reason : String} {c s : Int} :
    Reply.plain (.returned (settled config call status reason c s)) := rfl

theorem consumeRead_cases (hlib : lib.Lawful) (call : Call) (fault : Fault) (content : T)
    (audit : JsonlFile AuditEntry) :
    (∃ reply, Reply.plain reply ∧
        consumeRead lib config call fault content audit = (reply, content, audit)) ∨
      ∃ c s content', (viewOf lib content).sessionCount = some c ∧
        (viewOf lib content).successfulSessions = some s ∧
        Dict.lookup (viewOf lib content).bound call.trustOutcomeId = none ∧
        viewOf lib content' = ⟨some (c + 1), some (s + 1),
          (viewOf lib content).bound ++ [(call.trustOutcomeId, call.receiptSetDigest)]⟩ ∧
        consumeRead lib config call fault content audit =
          ((logTransition config call c s fault audit).1, content',
            (logTransition config call c s fault audit).2) := by
  unfold consumeRead
  cases hread : readYaml lib content with
  | none => exact .inl ⟨.raised, trivial, rfl⟩
  | some registry =>
      have hview : viewOf lib content = ⟨count lib (coerceProject registry) "session_count",
          count lib (coerceProject registry) "successful_sessions",
          readConsumedMap lib (coerceProject registry)⟩ := by
        rw [viewOf, hread]
      rw [hview]
      simp only
      cases hcount : count lib (coerceProject registry) "session_count" with
      | none => exact .inl ⟨.raised, trivial, rfl⟩
      | some c =>
          cases hsucc : count lib (coerceProject registry) "successful_sessions" with
          | none => exact .inl ⟨.raised, trivial, rfl⟩
          | some s =>
              cases hprior : Dict.lookup (readConsumedMap lib (coerceProject registry))
                  call.trustOutcomeId with
              | some prior =>
                  left
                  simp only
                  split
                  · exact ⟨_, settled_plain, rfl⟩
                  · exact ⟨_, settled_plain, rfl⟩
              | none =>
                  have hcounted := @viewOf_counted _ lib config hlib registry
                    (coerceProject registry) _ call c s (readConsumedMap_nodup lib _) hprior
                  have hright : ∀ x, x = ((logTransition config call c s fault audit).1,
                      lib.dump (Dict.set registry (.str "project")
                        (.map (countOutcome config call (coerceProject registry)
                          (readConsumedMap lib (coerceProject registry)) c s))),
                      (logTransition config call c s fault audit).2) →
                      ∃ c' s' content', some c = some c' ∧ some s = some s' ∧
                        (none : Option String) = none ∧ viewOf lib content' =
                          ⟨some (c' + 1), some (s' + 1),
                            readConsumedMap lib (coerceProject registry) ++
                              [(call.trustOutcomeId, call.receiptSetDigest)]⟩ ∧
                        x = ((logTransition config call c' s' fault audit).1, content',
                          (logTransition config call c' s' fault audit).2) :=
                    fun x hx => ⟨c, s, _, rfl, rfl, rfl, hcounted, hx⟩
                  cases fault with
                  | crashBeforeWrite => exact .inl ⟨.crashed, trivial, rfl⟩
                  | write e =>
                      left
                      simp only
                      split
                      · exact ⟨_, settled_plain, rfl⟩
                      · exact ⟨.raised, trivial, rfl⟩
                  | none => exact .inr (hright _ rfl)
                  | defaultWrite e => exact .inr (hright _ rfl)
                  | crashAfterWrite => exact .inr (hright _ rfl)
                  | auditAppend written => exact .inr (hright _ rfl)
                  | crashAfterAudit => exact .inr (hright _ rfl)

/-- The condition on one call: a registry write that fails raises an `OSError`, and no append to the
audit log stops part way through its row. -/
def Regular (lib : Stdlib T) : Fault → Prop
  | .write e => e.isOSError lib = true
  | .auditAppend written => written.cut = false
  | _ => True

/-- The entry of a crossed boundary is appended whole or not at all; it is there if the call
returned. -/
theorem logTransition_cases {call : Call} {c s : Int} {fault : Fault}
    {audit : JsonlFile AuditEntry} (hregular : Regular lib fault) :
    ∃ written : Written, written.cut = false ∧
      (logTransition config call c s fault audit).2 =
        (if tierForCount config c ≠ tierForCount config (c + 1) then
          audit.append (auditEntry config call (c + 1) (tierForCount config c)
            (tierForCount config (c + 1))) written
        else audit) ∧
      ∀ r, (logTransition config call c s fault audit).1 = .returned r →
        written = .line ∧ r.incremented = true ∧ r.sessionCount = c + 1 := by
  unfold logTransition
  by_cases htier : tierForCount config c = tierForCount config (c + 1)
  · refine ⟨.line, rfl, ?_, ?_⟩
    · simp only [htier, ne_eq, not_true_eq_false, if_false]
      split
      · rfl
      · split <;> rfl
    · intro r hr
      simp only [htier, ne_eq, not_true_eq_false, if_false] at hr
      split at hr
      · cases hr
      · split at hr
        · cases hr
        · obtain rfl := Reply.returned.inj hr
          exact ⟨rfl, rfl, rfl⟩
  · simp only [htier, ne_eq, not_false_eq_true, if_true]
    cases fault with
    | crashAfterWrite => exact ⟨.nothing, rfl, rfl, by simp⟩
    | auditAppend written => exact ⟨written, hregular, rfl, by simp⟩
    | crashAfterAudit => exact ⟨.line, rfl, rfl, by simp⟩
    | none => exact ⟨.line, rfl, rfl, fun r hr => by cases hr; exact ⟨rfl, rfl, rfl⟩⟩
    | defaultWrite e => exact ⟨.line, rfl, rfl, fun r hr => by cases hr; exact ⟨rfl, rfl, rfl⟩⟩
    | crashBeforeWrite => exact ⟨.line, rfl, rfl, fun r hr => by cases hr; exact ⟨rfl, rfl, rfl⟩⟩
    | write e => exact ⟨.line, rfl, rfl, fun r hr => by cases hr; exact ⟨rfl, rfl, rfl⟩⟩

theorem append_uncut {file : JsonlFile AuditEntry} {entry : AuditEntry} {written : Written}
    (htail : file.tail = []) (h : written.cut = false) :
    (file.append entry written).tail = [] ∧
      (file.append entry written).readable =
        file.readable ++ if written = .line then [entry] else [] := by
  rw [readable_append htail]
  cases written with
  | nothing => exact ⟨htail, rfl⟩
  | part => cases h
  | text => cases h
  | line => exact ⟨rfl, rfl⟩

/-! ## Runs -/

/-- What is asked of the entries a run has added to the audit log. -/
structure Logged (config : TrustConfig) (base view : View) (added : List AuditEntry)
    (returned : List TrustConsumeResult) : Prop where
  crossed : ∀ e ∈ added, ∃ c₀ c, base.sessionCount = some c₀ ∧ view.sessionCount = some c ∧
    c₀ < e.sessionCount ∧ e.sessionCount ≤ c ∧
    e.previousTier = tierForCount config (e.sessionCount - 1) ∧
    e.newTier = tierForCount config e.sessionCount ∧ e.previousTier ≠ e.newTier
  once : added.Pairwise fun e e' => e.sessionCount < e'.sessionCount
  returned : ∀ r ∈ returned, r.incremented = true →
    tierForCount config (r.sessionCount - 1) ≠ tierForCount config r.sessionCount →
      ∃ e ∈ added, e.sessionCount = r.sessionCount

/-- What is asked of every state: the bindings are the base's and the new ones, the counters are the
base's and as many, and the audit log says which boundaries were crossed. -/
structure CountedOnce (lib : Stdlib T) (config : TrustConfig) (base : View)
    (audit : List AuditEntry) (w : World T) : Prop where
  distinct : ((w.view lib).bound.map (·.1)).Nodup
  counts : ∃ new : Dict String String, (w.view lib).bound = base.bound ++ new ∧
    (w.view lib).sessionCount = (base.sessionCount.map fun n => n + (new.length : Int)) ∧
    (w.view lib).successfulSessions = base.successfulSessions.map fun n => n + (new.length : Int)
  logged : ∃ added, w.audit.readable = audit ++ added ∧
    Logged config base (w.view lib) added w.returned

structure Inv (lib : Stdlib T) (config : TrustConfig) (base : View) (audit : List AuditEntry)
    (w : World T) : Prop extends CountedOnce lib config base audit w where
  registry : w.registry.isSome = true
  tail : w.audit.tail = []

/-- A registry with its audit log, before the calls. -/
def World.start (content : T) (audit : JsonlFile AuditEntry) : World T := ⟨some content, audit, []⟩

theorem Inv.start {content : T} {audit : JsonlFile AuditEntry} (htail : audit.tail = []) :
    Inv lib config (viewOf lib content) audit.readable (World.start content audit) where
  distinct := viewOf_nodup lib content
  counts := ⟨[], by simp [World.view, World.start], by simp [World.view, World.start],
    by simp [World.view, World.start]⟩
  logged := ⟨[], by simp [World.start], by simp, List.Pairwise.nil, by simp [World.start]⟩
  registry := rfl
  tail := htail

theorem consume_some {w : World T} {content : T} (h : w.registry = some content) (call : Call)
    (fault : Fault) :
    w.consume lib config call fault =
      ((consumeRead lib config call fault content w.audit).1,
        { registry := some (consumeRead lib config call fault content w.audit).2.1
          audit := (consumeRead lib config call fault content w.audit).2.2
          returned :=
            match (consumeRead lib config call fault content w.audit).1 with
            | .returned r => w.returned ++ [r]
            | _ => w.returned }) := by
  unfold World.consume
  rw [h]
  cases fault <;> rfl

theorem mem_returned {reply : Reply} {returned : List TrustConsumeResult} {r : TrustConsumeResult}
    (h : r ∈ match reply with
      | .returned r => returned ++ [r]
      | _ => returned) : r ∈ returned ∨ reply = .returned r := by
  cases reply with
  | returned r' =>
      rcases List.mem_append.mp h with h | h
      · exact .inl h
      · exact .inr (by rw [List.mem_singleton.mp h])
  | raised => exact .inl h
  | crashed => exact .inl h

theorem Inv.consume (hlib : lib.Lawful) {base : View} {audit : List AuditEntry} {w : World T}
    (h : Inv lib config base audit w) (call : Call) {fault : Fault} (hregular : Regular lib fault) :
    Inv lib config base audit (w.consume lib config call fault).2 := by
  obtain ⟨content, hcontent⟩ := Option.isSome_iff_exists.mp h.registry
  have hview : w.view lib = viewOf lib content := by rw [World.view, hcontent]; rfl
  obtain ⟨new, hbound, hcount, hsucc⟩ := h.counts
  obtain ⟨added, hadded, hlogged⟩ := h.logged
  rw [hview] at hbound hcount hsucc hlogged
  rw [consume_some hcontent]
  rcases @consumeRead_cases T lib config hlib call fault content w.audit with
    ⟨reply, hplain, heq⟩ | ⟨c, s, content', hc, hs, hnew, hview', heq⟩
  · rw [heq]
    refine ⟨⟨viewOf_nodup lib content, ⟨new, hbound, hcount, hsucc⟩, added, hadded,
      hlogged.crossed, hlogged.once, ?_⟩, rfl, h.tail⟩
    intro r hr hincremented
    rcases mem_returned hr with hr | rfl
    · exact hlogged.returned r hr hincremented
    · rw [show r.incremented = false from hplain] at hincremented
      cases hincremented
  · obtain ⟨written, hcut, haudit, hreturned⟩ :=
      @logTransition_cases _ lib config call c s fault w.audit hregular
    obtain ⟨htail, hreadable⟩ := @append_uncut w.audit (auditEntry config call (c + 1)
      (tierForCount config c) (tierForCount config (c + 1))) written h.tail hcut
    rw [heq]
    simp only [haudit]
    have hlater : ∀ e ∈ added, e.sessionCount < c + 1 := by
      intro e he
      obtain ⟨c₀, c', -, hc', -, hle, -⟩ := hlogged.crossed e he
      obtain rfl : c = c' := Option.some.inj (hc.symm.trans hc')
      omega
    obtain ⟨c₀, hc₀, hc₀c⟩ : ∃ c₀, base.sessionCount = some c₀ ∧ c = c₀ + new.length := by
      obtain ⟨c₀, hc₀, hsum⟩ := Option.map_eq_some_iff.mp (hcount.symm.trans hc)
      exact ⟨c₀, hc₀, hsum.symm⟩
    have hold : ∀ e ∈ added, ∃ c₀ c', base.sessionCount = some c₀ ∧
        (viewOf lib content').sessionCount = some c' ∧ c₀ < e.sessionCount ∧
        e.sessionCount ≤ c' ∧ e.previousTier = tierForCount config (e.sessionCount - 1) ∧
        e.newTier = tierForCount config e.sessionCount ∧ e.previousTier ≠ e.newTier := by
      intro e he
      obtain ⟨c₀, c', hbase, -, hlt, -, hrest⟩ := hlogged.crossed e he
      exact ⟨c₀, c + 1, hbase, by rw [hview'], hlt, (hlater e he).le, hrest⟩
    refine ⟨⟨viewOf_nodup lib content', ⟨new ++ [(call.trustOutcomeId, call.receiptSetDigest)],
      ?_, ?_, ?_⟩, ?_⟩, rfl, ?_⟩
    · change (viewOf lib content').bound = _
      rw [hview', hbound, List.append_assoc]
    · change (viewOf lib content').sessionCount = _
      rw [hview', hc₀, Option.map_some, hc₀c]
      simp [add_assoc]
    · obtain ⟨s₀, hs₀, hs₀s⟩ := Option.map_eq_some_iff.mp (hsucc.symm.trans hs)
      change (viewOf lib content').successfulSessions = _
      rw [hview', hs₀, Option.map_some, ← hs₀s]
      simp [add_assoc]
    · by_cases hcross : tierForCount config c ≠ tierForCount config (c + 1) ∧ written = .line
      · refine ⟨added ++ [auditEntry config call (c + 1) (tierForCount config c)
          (tierForCount config (c + 1))], ?_, ?_, ?_, ?_⟩
        · rw [if_pos hcross.1, hreadable, if_pos hcross.2, hadded, List.append_assoc]
        · intro e he
          rcases List.mem_append.mp he with he | he
          · exact hold e he
          · rw [List.mem_singleton.mp he]
            refine ⟨c₀, c + 1, hc₀, congrArg View.sessionCount hview', ?_, le_rfl, ?_, rfl, hcross.1⟩
            · change c₀ < c + 1
              omega
            · change tierForCount config c = tierForCount config (c + 1 - 1)
              rw [add_sub_cancel_right]
        · rw [List.pairwise_append]
          refine ⟨hlogged.once, List.pairwise_singleton _ _, fun e he e' he' => ?_⟩
          rw [List.mem_singleton.mp he']
          exact hlater e he
        · intro r hr hincremented hboundary
          rcases mem_returned hr with hr | hr
          · obtain ⟨e, he, hcount'⟩ := hlogged.returned r hr hincremented hboundary
            exact ⟨e, List.mem_append_left _ he, hcount'⟩
          · exact ⟨_, List.mem_append_right _ (List.mem_singleton.mpr rfl),
              (hreturned r hr).2.2.symm⟩
      · refine ⟨added, ?_, hold, hlogged.once, ?_⟩
        · rw [← hadded]
          split
          · next htier =>
              rw [hreadable, if_neg fun hline => hcross ⟨htier, hline⟩, List.append_nil]
          · rfl
        · intro r hr hincremented hboundary
          rcases mem_returned hr with hr | hr
          · exact hlogged.returned r hr hincremented hboundary
          · obtain ⟨hline, -, hcount'⟩ := hreturned r hr
            rw [hcount', add_sub_cancel_right] at hboundary
            exact absurd ⟨hboundary, hline⟩ hcross
    · split
      · exact htail
      · exact h.tail

/-- What is asked of one call. -/
structure CallCounts (lib : Stdlib T) (w : World T) (call : Call) (fault : Fault) (reply : Reply)
    (w' : World T) : Prop where
  /-- a call leaves the registry, or it binds its outcome -/
  bound : w'.registry = w.registry ∨ (Dict.lookup (w.view lib).bound call.trustOutcomeId = none ∧
    (w'.view lib).bound =
      (w.view lib).bound ++ [(call.trustOutcomeId, call.receiptSetDigest)])
  unchanged : ∀ r, reply = .returned r → r.incremented = false → w'.registry = w.registry
  /-- a write that fails is reported -/
  failed : ∀ e, fault = .write e → (w.view lib).sessionCount.isSome = true →
    (w.view lib).successfulSessions.isSome = true →
    Dict.lookup (w.view lib).bound call.trustOutcomeId = none →
      ∃ r, reply = .returned r ∧ r.status = .writeFailed ∧ r.incremented = false
  /-- an outcome that is not bound yet is counted, if nothing goes wrong -/
  counted : fault = .none → (w.view lib).sessionCount.isSome = true →
    (w.view lib).successfulSessions.isSome = true →
    Dict.lookup (w.view lib).bound call.trustOutcomeId = none →
      ∃ r, reply = .returned r ∧ r.status = .incremented ∧ (w'.view lib).bound =
        (w.view lib).bound ++ [(call.trustOutcomeId, call.receiptSetDigest)]

theorem consumeRead_fresh {call : Call} {fault : Fault} {content : T}
    {audit : JsonlFile AuditEntry} (hc : (viewOf lib content).sessionCount.isSome = true)
    (hs : (viewOf lib content).successfulSessions.isSome = true)
    (hnew : Dict.lookup (viewOf lib content).bound call.trustOutcomeId = none) :
    (∀ e, fault = .write e → e.isOSError lib = true →
      ∃ r, (consumeRead lib config call fault content audit).1 = .returned r ∧
        r.status = .writeFailed ∧ r.incremented = false) ∧
      (fault = .none → ∃ r, (consumeRead lib config call fault content audit).1 = .returned r ∧
        r.status = .incremented ∧ r.incremented = true) := by
  unfold viewOf at hc hs hnew
  unfold consumeRead
  cases hread : readYaml lib content with
  | none => simp [hread] at hc
  | some registry =>
      simp only [hread] at hc hs hnew
      obtain ⟨c, hc⟩ := Option.isSome_iff_exists.mp hc
      obtain ⟨s, hs⟩ := Option.isSome_iff_exists.mp hs
      simp only [hc, hs, hnew]
      constructor
      · rintro e rfl he
        simp only [he, if_true]
        exact ⟨_, rfl, rfl, rfl⟩
      · rintro rfl
        by_cases htier : tierForCount config c = tierForCount config (c + 1)
        · simp only [logTransition, htier, ne_eq, not_true_eq_false, if_false, reduceCtorEq]
          exact ⟨_, rfl, rfl, rfl⟩
        · simp only [logTransition, htier, ne_eq, not_false_eq_true, if_true, if_false,
            reduceCtorEq]
          exact ⟨_, rfl, rfl, rfl⟩

theorem Inv.callCounts (hlib : lib.Lawful) {base : View} {audit : List AuditEntry} {w : World T}
    (h : Inv lib config base audit w) (call : Call) {fault : Fault} (hregular : Regular lib fault) :
    CallCounts lib w call fault (w.consume lib config call fault).1
      (w.consume lib config call fault).2 := by
  obtain ⟨content, hcontent⟩ := Option.isSome_iff_exists.mp h.registry
  have hview : w.view lib = viewOf lib content := by rw [World.view, hcontent]; rfl
  have hcases := @consumeRead_cases T lib config hlib call fault content w.audit
  rw [consume_some hcontent]
  refine ⟨?_, fun r hr hnot => ?_, fun e he hc hs hnew => ?_, fun hnone hc hs hnew => ?_⟩
  · rcases hcases with ⟨reply, -, heq⟩ | ⟨c, s, content', -, -, hnew, hview', heq⟩
    · exact .inl (by rw [heq, hcontent])
    · right
      rw [hview, heq]
      exact ⟨hnew, congrArg View.bound hview'⟩
  · rcases hcases with ⟨reply, -, heq⟩ | ⟨c, s, content', -, -, hnew, hview', heq⟩
    · rw [heq, hcontent]
    · exfalso
      rw [heq] at hr
      obtain ⟨written, -, -, hreturned⟩ :=
        @logTransition_cases _ lib config call c s fault w.audit hregular
      rw [(hreturned r hr).2.1] at hnot
      cases hnot
  · rw [hview] at hc hs hnew
    subst he
    exact (consumeRead_fresh hc hs hnew).1 e rfl hregular
  · rw [hview] at hc hs hnew
    obtain ⟨r, hr, hstatus, hincremented⟩ := (@consumeRead_fresh _ lib config call fault content
      w.audit hc hs hnew).2 hnone
    refine ⟨r, hr, hstatus, ?_⟩
    rcases hcases with ⟨reply, hplain, heq⟩ | ⟨c, s, content', -, -, -, hview', heq⟩
    · rw [heq] at hr
      rw [show reply = .returned r from hr] at hplain
      rw [show r.incremented = false from hplain] at hincremented
      cases hincremented
    · rw [hview, heq]
      exact congrArg View.bound hview'

/-- One call that meets the condition. -/
def RegularStep (lib : Stdlib T) (config : TrustConfig) (w : World T) (deed : Call × Fault)
    (w' : World T) : Prop :=
  Step lib config w deed w' ∧ Regular lib deed.2

theorem run_inv (hlib : lib.Lawful) {base : View} {audit : List AuditEntry} {w w' : World T}
    {deeds : List (Call × Fault)} (h : Inv lib config base audit w)
    (hrun : Run (RegularStep lib config) w deeds w') : Inv lib config base audit w' := by
  refine hrun.invariant (I := Inv lib config base audit) h ?_
  rintro v ⟨call, fault⟩ v' hinv ⟨rfl, hregular⟩
  exact hinv.consume hlib call hregular

theorem bound_kept (hlib : lib.Lawful) {base : View} {audit : List AuditEntry} {w w' : World T}
    {deeds : List (Call × Fault)} (h : Inv lib config base audit w)
    (hrun : Run (RegularStep lib config) w deeds w') {id digest : String}
    (hbound : Dict.lookup (w.view lib).bound id = some digest) :
    Dict.lookup (w'.view lib).bound id = some digest := by
  refine (hrun.invariant (I := fun v => Inv lib config base audit v ∧
    Dict.lookup (v.view lib).bound id = some digest) ⟨h, hbound⟩ ?_).2
  rintro v ⟨call, fault⟩ v' ⟨hinv, hkept⟩ ⟨rfl, hregular⟩
  refine ⟨hinv.consume hlib call hregular, ?_⟩
  rcases (hinv.callCounts hlib call hregular).bound with hsame | ⟨-, hnew⟩
  · rw [World.view, hsame]
    exact hkept
  · rw [hnew, Dict.lookup_append, hkept]
    rfl

/-- In every run of regular calls each outcome counts once. -/
theorem outcomes_counted_once (hlib : lib.Lawful) {content : T} {audit : JsonlFile AuditEntry}
    (htail : audit.tail = []) {w w' : World T} {deeds deeds' : List (Call × Fault)}
    (h : Run (RegularStep lib config) (World.start content audit) deeds w)
    (h' : Run (RegularStep lib config) w deeds' w') :
    CountedOnce lib config (viewOf lib content) audit.readable w ∧
      (∀ id digest, Dict.lookup (w.view lib).bound id = some digest →
        Dict.lookup (w'.view lib).bound id = some digest) ∧
      ∀ call fault, Regular lib fault →
        CallCounts lib w call fault (w.consume lib config call fault).1
          (w.consume lib config call fault).2 := by
  have hinv := run_inv hlib (Inv.start htail) h
  exact ⟨hinv.toCountedOnce, fun id digest hbound => bound_kept hlib hinv h' hbound,
    fun call fault hregular => hinv.callCounts hlib call hregular⟩

end

/-! ### One failed write -/

/-- Text that is the mapping it says. -/
def plainLib : Stdlib Mapping where
  load m := some (.map m)
  dump m := m
  text
    | .other text => text
    | _ => ""
  parseInt _ := none
  unsafeWriteIsOSError := false

theorem plainLib_lawful : plainLib.Lawful := fun _ => rfl

def sampleCall : Call := ⟨"proj:run-1", "d1", "agent", "t1"⟩

def sampleWorld : World Mapping := World.start defaultRegistry {}

theorem outcomes_counted_once_sample :
    CountedOnce plainLib {} (viewOf plainLib defaultRegistry) ({} : JsonlFile AuditEntry).readable
        (sampleWorld.consume plainLib {} sampleCall .none).2 ∧
      (∀ id digest,
        Dict.lookup ((sampleWorld.consume plainLib {} sampleCall .none).2.view plainLib).bound id =
            some digest →
          Dict.lookup ((sampleWorld.consume plainLib {} sampleCall .none).2.view plainLib).bound id =
            some digest) ∧
      ∀ call fault, Regular plainLib fault →
        CallCounts plainLib (sampleWorld.consume plainLib {} sampleCall .none).2 call fault
          ((sampleWorld.consume plainLib {} sampleCall .none).2.consume plainLib {} call fault).1
          ((sampleWorld.consume plainLib {} sampleCall .none).2.consume plainLib {} call fault).2 :=
  outcomes_counted_once plainLib_lawful rfl
    (Run.single (x := (sampleCall, Fault.none)) ⟨rfl, trivial⟩) .nil

/-- The writer's `StateError` goes through the call. -/
theorem failed_write_raised :
    ∃ (lib : Stdlib Mapping) (w : World Mapping) (call : Call), lib.Lawful ∧
      w.view lib = ⟨some 0, some 0, []⟩ ∧ (w.consume lib {} call (.write .state)).1 = .raised :=
  ⟨plainLib, sampleWorld, sampleCall, plainLib_lawful, rfl, rfl⟩

end TrwMcp.Trust
