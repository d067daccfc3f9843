import TrwMcp.Formation.MergeQueue

/-!
# Runs of the merge queue

What every reachable log replays to: the finished items, at most one attempted item, and the items
that wait, in the order they were approved.
-/

namespace TrwMcp.Formation

open Lib

/-- The replay of the log, in three parts. -/
structure Queue (s : State) (fin act wait : Dict String MergeItem) : Prop where
  replays : replay s.ledger = .ok (fin ++ act ++ wait)
  keys : ∀ m ∈ fin ++ act ++ wait, m.1 = m.2.approvalId ∧ isApprovalId m.1 = true
  finished : ∀ m ∈ fin, m.2.state = "merged" ∨ m.2.state = "stopped"
  acting : act = [] ∨ ∃ m, act = [m] ∧ m.2.state = "attempted"
  waiting : ∀ m ∈ wait, m.2.state = "approved"
  approved : approvals s.ledger = (fin ++ act ++ wait).map (·.1)
  attempted : attempts s.ledger = (fin ++ act).map (·.1)
  nodup : ((fin ++ act ++ wait).map (·.1)).Nodup
  subjects : (fin ++ act ++ wait).Pairwise fun m n =>
    m.2.state ≠ "stopped" → n.2.state ≠ "stopped" → m.2.subject ≠ n.2.subject
  ended : ∀ before row after, s.ledger = before ++ row :: after → isTerminalRow row →
    ∃ id ∈ attempts before, rowId row.event row = some id
  moved : ∀ id ∈ s.moved, id ∈ (fin ++ act).map (·.1)
  merged : ∀ m ∈ fin, m.2.state = "merged" → m.1 ∈ s.moved

/-- No stopped item moved the target. -/
def StoppedUnmoved (s : State) (fin : Dict String MergeItem) : Prop :=
  ∀ m ∈ fin, m.2.state = "stopped" → m.1 ∉ s.moved

theorem queue_empty : Queue {} [] [] [] where
  replays := rfl
  keys := by simp
  finished := by simp
  acting := .inl rfl
  waiting := by simp
  approved := rfl
  attempted := rfl
  nodup := by simp
  subjects := by simp
  ended := by simp
  moved := by simp
  merged := by simp

/-! ## Rows -/

theorem rowId_of_ne {event : String} {row : Row} (h : row.event ≠ event) : rowId event row = none :=
  if_neg h

theorem filterMap_snoc (f : Row → Option String) (ledger : List Row) (row : Row) :
    (ledger ++ [row]).filterMap f = ledger.filterMap f ++ (f row).toList := by
  rw [List.filterMap_append]
  cases h : f row <;> simp [h]

theorem ended_snoc {ledger : List Row} {row : Row}
    (h : ∀ before r after, ledger = before ++ r :: after → isTerminalRow r →
      ∃ id ∈ attempts before, rowId r.event r = some id)
    (hrow : isTerminalRow row → ∃ id ∈ attempts ledger, rowId row.event row = some id) :
    ∀ before r after, ledger ++ [row] = before ++ r :: after → isTerminalRow r →
      ∃ id ∈ attempts before, rowId r.event r = some id := by
  intro before r after hsplit hterminal
  rcases snoc_split hsplit with ⟨_, rfl, rfl⟩ | ⟨after', _, hledger⟩
  · exact hrow hterminal
  · exact h before r after' hledger hterminal

theorem Queue.other {s : State} {fin act wait : Dict String MergeItem} (h : Queue s fin act wait)
    {row : Row} (hforeign : row.event ∉ mergeEvents) :
    Queue { s with ledger := s.ledger ++ [row] } fin act wait := by
  have hne : row.event ≠ "formation_merge_approved" ∧ row.event ≠ "formation_merge_attempt" ∧
      row.event ≠ "formation_merge_merged" ∧ row.event ≠ "formation_merge_stopped" := by
    simpa [mergeEvents] using hforeign
  refine { h with replays := ?_, approved := ?_, attempted := ?_, ended := ?_ }
  · rw [replay_snoc h.replays, replayRow, if_pos hforeign]
    rfl
  · rw [approvals, filterMap_snoc, rowId_of_ne hne.1, ← approvals, h.approved]
    simp
  · rw [attempts, filterMap_snoc, rowId_of_ne hne.2.1, ← attempts, h.attempted]
    simp
  · refine ended_snoc h.ended fun hterminal => ?_
    exact absurd hterminal (by simp [isTerminalRow, hne])

/-! ## Approval -/

theorem replayRow_approved {items : Dict String MergeItem} {c : EnqueueCall}
    (hvalid : isApprovalId c.token = true) (hfresh : Dict.has items c.token = false) :
    replayRow items (eventRow "formation_merge_approved" c.item []) =
      .ok (items ++ [(c.token, c.item)]) := by
  have hmem : "formation_merge_approved" ∈ mergeEvents := by simp [mergeEvents]
  have hkey : c.token ∉ items.map (·.1) := by
    rw [← Dict.lookup_isSome_iff]
    simpa [Dict.has] using hfresh
  have hid : (Dict.lookup c.item.asDict "approval_id").filter isApprovalId = some c.token := by
    rw [show Dict.lookup c.item.asDict "approval_id" = some c.token from rfl, Option.filter_some,
      if_pos hvalid]
  have hitem : approvedItem c.token c.item.asDict = some c.item := rfl
  simp only [replayRow, eventRow, hmem, not_true_eq_false, if_false, if_true, hid, hfresh,
    Bool.false_eq_true, hitem, Dict.set_eq_append hkey]
  rfl

theorem Queue.enqueue {s : State} {fin act wait : Dict String MergeItem} (h : Queue s fin act wait)
    {c : EnqueueCall} (hvalid : isApprovalId c.token = true)
    (hfresh : Dict.has (fin ++ act ++ wait) c.token = false)
    (hnew : ∀ m ∈ fin ++ act ++ wait, m.2.state ≠ "stopped" → m.2.subject ≠ c.item.subject) :
    Queue { s with ledger := s.ledger ++ [eventRow "formation_merge_approved" c.item []] }
      fin act (wait ++ [(c.token, c.item)]) := by
  have hkey : c.token ∉ (fin ++ act ++ wait).map (·.1) := by
    rw [← Dict.lookup_isSome_iff]
    simpa [Dict.has] using hfresh
  refine { h with
    replays := ?_, keys := ?_, waiting := ?_, approved := ?_, attempted := ?_, nodup := ?_,
    subjects := ?_, ended := ?_ }
  · rw [replay_snoc h.replays, replayRow_approved hvalid hfresh]
    simp
  · intro m hm
    rw [← List.append_assoc, List.mem_append, List.mem_singleton] at hm
    rcases hm with hm | rfl
    · exact h.keys m hm
    · exact ⟨rfl, hvalid⟩
  · intro m hm
    rcases List.mem_append.mp hm with hm | hm
    · exact h.waiting m hm
    · rw [List.mem_singleton.mp hm]
      rfl
  · rw [approvals, filterMap_snoc, ← approvals, h.approved]
    have hrow : rowId "formation_merge_approved"
        (eventRow "formation_merge_approved" c.item []) = some c.token := rfl
    rw [hrow]
    simp
  · rw [attempts, filterMap_snoc, ← attempts, h.attempted]
    have hrow : rowId "formation_merge_attempt"
        (eventRow "formation_merge_approved" c.item []) = none := rfl
    rw [hrow]
    simp
  · rw [← List.append_assoc, List.map_append, List.nodup_append]
    refine ⟨h.nodup, by simp, fun a ha b hb => ?_⟩
    rw [List.map_singleton, List.mem_singleton] at hb
    rintro rfl
    rw [hb] at ha
    exact hkey ha
  · rw [← List.append_assoc, List.pairwise_append]
    refine ⟨h.subjects, by simp, fun m hm n hn hstate _ => ?_⟩
    rw [List.mem_singleton.mp hn]
    exact hnew m hm hstate
  · refine ended_snoc h.ended fun hterminal => ?_
    rcases hterminal with hevent | hevent <;> simp [eventRow] at hevent

/-! ## Attempts -/

theorem Queue.pending {s : State} {fin act wait : Dict String MergeItem} (h : Queue s fin act wait)
    {key : String} {pending : MergeItem}
    (hfind : (fin ++ act ++ wait).find? (fun m => isPending m.2) = some (key, pending))
    (hstate : pending.state = "approved") :
    act = [] ∧ ∃ rest, wait = (key, pending) :: rest := by
  have hfin : fin.find? (fun m => isPending m.2) = none := by
    refine List.find?_eq_none.mpr fun m hm => ?_
    rcases h.finished m hm with hs | hs <;> simp [isPending, hs]
  rw [List.append_assoc, List.find?_append, hfin, Option.none_or] at hfind
  rcases h.acting with rfl | ⟨m, rfl, hm⟩
  · refine ⟨rfl, ?_⟩
    cases wait with
    | nil => cases hfind
    | cons m rest =>
        have hm : isPending m.2 = true := by simp [isPending, h.waiting m (by simp)]
        simp only [List.nil_append, List.find?_cons, hm] at hfind
        exact ⟨rest, by rw [Option.some.inj hfind]⟩
  · have hpending : isPending m.2 = true := by simp [isPending, hm]
    simp only [List.singleton_append, List.find?_cons, hpending] at hfind
    rw [Option.some.inj hfind, hstate] at hm
    exact absurd hm (by decide)

theorem replayRow_later {fin rest : Dict String MergeItem} {key event : String} {item : MergeItem}
    {data : Dict String String} (hkey : key ∉ fin.map (·.1)) (hvalid : isApprovalId key = true)
    (hid : Dict.lookup data "approval_id" = some key) (hevent : event ∈ mergeEvents)
    (hne : event ≠ "formation_merge_approved")
    (hstate : item.state =
      if event = "formation_merge_attempt" then "approved" else "attempted") :
    replayRow (fin ++ (key, item) :: rest) ⟨event, data⟩ =
      .ok (fin ++ (key, item.advance event data) :: rest) := by
  have hfilter : (Dict.lookup data "approval_id").filter isApprovalId = some key := by
    rw [hid, Option.filter_some, if_pos hvalid]
  simp only [replayRow, hevent, not_true_eq_false, if_false, hfilter, hne, lookup_middle hkey,
    if_pos hstate, set_middle hkey]
  rfl

theorem Queue.attempt {s : State} {fin rest : Dict String MergeItem} {key : String}
    {pending : MergeItem} (h : Queue s fin [] ((key, pending) :: rest)) (moved : Bool) :
    ∃ item : MergeItem, item.state = "attempted" ∧ item.approvalId = pending.approvalId ∧
      Queue (s.record pending [] moved) fin [(key, item)] rest := by
  have hkeys := h.keys
  have hnodup := h.nodup
  have hsubjects := h.subjects
  have happroved := h.approved
  have hattempted := h.attempted
  simp only [List.append_nil] at hkeys hnodup hsubjects happroved hattempted
  obtain ⟨hself, hvalid⟩ := hkeys (key, pending) (by simp)
  have hkey : key ∉ fin.map (·.1) := by
    rw [List.map_append, List.nodup_append] at hnodup
    exact fun hmem => hnodup.2.2 key hmem key (by simp) rfl
  have hrow : eventRow "formation_merge_attempt" pending [] =
      ⟨"formation_merge_attempt", [("approval_id", key)]⟩ := by
    rw [eventRow, if_neg (by decide), ← hself]
  refine ⟨pending.advance "formation_merge_attempt" [("approval_id", key)], rfl, rfl, ?_⟩
  have hreplay := h.replays
  rw [List.append_nil] at hreplay
  constructor
  · rw [State.record, hrow, replay_snoc hreplay,
      replayRow_later hkey hvalid rfl (by simp [mergeEvents]) (by decide)
        (h.waiting (key, pending) (by simp))]
    simp
  · intro m hm
    rw [List.append_assoc, List.singleton_append, List.mem_append, List.mem_cons] at hm
    rcases hm with hm | rfl | hm
    · exact hkeys m (by simp [hm])
    · exact ⟨hself, hvalid⟩
    · exact hkeys m (by simp [hm])
  · exact h.finished
  · exact .inr ⟨_, rfl, rfl⟩
  · exact fun m hm => h.waiting m (List.mem_cons_of_mem _ hm)
  · rw [State.record, hrow, approvals, filterMap_snoc, ← approvals, happroved]
    have hno : rowId "formation_merge_approved"
        ⟨"formation_merge_attempt", [("approval_id", key)]⟩ = none := rfl
    rw [hno]
    simp
  · rw [State.record, hrow, attempts, filterMap_snoc, ← attempts, hattempted]
    have hyes : rowId "formation_merge_attempt"
        ⟨"formation_merge_attempt", [("approval_id", key)]⟩ = some key := rfl
    rw [hyes]
    simp
  · simpa using hnodup
  · have hsame : (pending.advance "formation_merge_attempt" [("approval_id", key)]).subject =
        pending.subject := rfl
    have hlive : pending.state ≠ "stopped" := by
      rw [h.waiting (key, pending) (by simp)]
      decide
    rw [List.append_assoc, List.singleton_append]
    rw [List.pairwise_append, List.pairwise_cons] at hsubjects ⊢
    obtain ⟨hfin, ⟨hhead, htail⟩, hcross⟩ := hsubjects
    refine ⟨hfin, ⟨fun n hn _ hstate => ?_, htail⟩, fun m hm n hn hm' hn' => ?_⟩
    · rw [hsame]
      exact hhead n hn hlive hstate
    · rcases List.mem_cons.mp hn with rfl | hn
      · rw [hsame]
        exact hcross m hm (key, pending) (by simp) hm' hlive
      · exact hcross m hm n (List.mem_cons_of_mem _ hn) hm' hn'
  · rw [State.record, hrow]
    refine ended_snoc h.ended fun hterminal => ?_
    rcases hterminal with hevent | hevent <;> simp at hevent
  · intro id hid
    have hold : ∀ id ∈ s.moved, id ∈ (fin ++ [(key, pending)]).map (·.1) := fun id hid => by
      have := h.moved id hid
      rw [List.append_nil] at this
      rw [List.map_append]
      exact List.mem_append_left _ this
    simp only [State.record] at hid
    split at hid
    · rcases List.mem_cons.mp hid with rfl | hid
      · rw [← hself]
        simp
      · simpa using hold id hid
    · simpa using hold id hid
  · intro m hm hmerged
    have := h.merged m hm hmerged
    simp only [State.record]
    split
    · exact List.mem_cons_of_mem _ this
    · exact this

theorem Queue.finish {s : State} {fin rest : Dict String MergeItem} {key event : String}
    {item : MergeItem} (h : Queue s fin [(key, item)] rest) (hstate : item.state = "attempted")
    {data : Dict String String} (hid : Dict.lookup data "approval_id" = some key)
    (hevent : event = "formation_merge_merged" ∨ event = "formation_merge_stopped")
    (hmoved : event = "formation_merge_merged" → key ∈ s.moved) :
    Queue { s with ledger := s.ledger ++ [⟨event, data⟩] }
      (fin ++ [(key, item.advance event data)]) [] rest := by
  have hne : event ≠ "formation_merge_approved" ∧ event ≠ "formation_merge_attempt" ∧
      event ∈ mergeEvents := by
    rcases hevent with rfl | rfl <;> exact ⟨by decide, by decide, by simp [mergeEvents]⟩
  have hnew : newState event = "merged" ∨ newState event = "stopped" := by
    rcases hevent with rfl | rfl
    · exact .inl rfl
    · exact .inr rfl
  have hkeys := h.keys
  have hreplay := h.replays
  have hsubjects := h.subjects
  rw [List.append_assoc, List.singleton_append] at hkeys hreplay hsubjects
  obtain ⟨hself, hvalid⟩ := hkeys (key, item) (by simp)
  have hkey : key ∉ fin.map (·.1) := by
    have hnodup := h.nodup
    rw [List.append_assoc, List.map_append, List.nodup_append] at hnodup
    exact fun hmem => hnodup.2.2 key hmem key (by simp) rfl
  constructor
  · rw [replay_snoc hreplay, replayRow_later hkey hvalid hid hne.2.2 hne.1 (by rw [if_neg hne.2.1, hstate])]
    simp
  · intro m hm
    simp only [List.append_nil, List.append_assoc, List.singleton_append, List.mem_append,
      List.mem_cons] at hm
    rcases hm with hm | rfl | hm
    · exact hkeys m (by simp [hm])
    · exact ⟨hself, hvalid⟩
    · exact hkeys m (by simp [hm])
  · intro m hm
    rcases List.mem_append.mp hm with hm | hm
    · exact h.finished m hm
    · rw [List.mem_singleton.mp hm]
      exact hnew
  · exact .inl rfl
  · exact h.waiting
  · rw [approvals, filterMap_snoc, rowId_of_ne hne.1, ← approvals, h.approved]
    simp
  · rw [attempts, filterMap_snoc, rowId_of_ne hne.2.1, ← attempts, h.attempted]
    simp
  · simpa using h.nodup
  · have hsame : (item.advance event data).subject = item.subject := rfl
    have hlive : item.state ≠ "stopped" := by
      rw [hstate]
      decide
    rw [List.append_nil, List.append_assoc, List.singleton_append]
    rw [List.pairwise_append, List.pairwise_cons] at hsubjects ⊢
    obtain ⟨hfin, ⟨hhead, htail⟩, hcross⟩ := hsubjects
    refine ⟨hfin, ⟨fun n hn _ hn' => ?_, htail⟩, fun m hm n hn hm' hn' => ?_⟩
    · rw [hsame]
      exact hhead n hn hlive hn'
    · rcases List.mem_cons.mp hn with rfl | hn
      · rw [hsame]
        exact hcross m hm (key, item) (by simp) hm' hlive
      · exact hcross m hm n (List.mem_cons_of_mem _ hn) hm' hn'
  · refine ended_snoc h.ended fun _ => ⟨key, ?_, ?_⟩
    · rw [h.attempted]
      simp
    · rw [rowId, if_pos rfl]
      exact hid
  · intro id hid
    simpa using h.moved id hid
  · intro m hm hmerged
    rcases List.mem_append.mp hm with hm | hm
    · exact h.merged m hm hmerged
    · rw [List.mem_singleton.mp hm] at hmerged ⊢
      rcases hevent with rfl | rfl
      · exact hmoved rfl
      · have hstopped : newState "formation_merge_stopped" ≠ "merged" := by decide
        exact absurd hmerged hstopped

/-! ## Steps -/

/-- What the queue is in some state, with its stopped items unmoved under `truthful`. -/
def Sound (truthful : Prop) (s : State) : Prop :=
  ∃ fin act wait, Queue s fin act wait ∧ (truthful → StoppedUnmoved s fin)

theorem Sound.enqueue {truthful : Prop} {s : State} (hs : Sound truthful s) {c : EnqueueCall}
    (hvalid : isApprovalId c.token = true)
    (hfresh : ∀ items, replay s.ledger = .ok items → Dict.has items c.token = false) :
    Sound truthful (Formation.enqueue s c).2 := by
  obtain ⟨fin, act, wait, hq, hstopped⟩ := hs
  unfold Formation.enqueue
  cases c.caller with
  | error reason => exact ⟨fin, act, wait, hq, hstopped⟩
  | ok pin =>
      simp only [hq.replays]
      split
      · exact ⟨fin, act, wait, hq, hstopped⟩
      · split
        · exact ⟨fin, act, wait, hq, hstopped⟩
        · split
          · exact ⟨fin, act, wait, hq, hstopped⟩
          · next hnone =>
            split
            · exact ⟨fin, act, wait, hq, hstopped⟩
            · refine ⟨fin, act, _, hq.enqueue hvalid (hfresh _ hq.replays) ?_, hstopped⟩
              intro m hm hstate hsubject
              have := List.find?_eq_none.mp hnone m hm
              simp [hstate, hsubject] at this

theorem attempt_moved {c : RunCall} {pending : MergeItem} :
    (∀ merged, (attempt c pending).1 = .ok merged → (attempt c pending).2 = true) ∧
    (∀ stop, (attempt c pending).1 = .error stop → c.updateMoves = false →
      (attempt c pending).2 = false) := by
  unfold attempt
  cases checkAttempt c pending with
  | error stop => exact ⟨fun _ h => (nomatch h), fun _ _ _ => rfl⟩
  | ok found => exact apply_moved

theorem record_rows (s : State) (pending : MergeItem) (row : Row) (moved : Bool) :
    s.record pending [row] moved =
      { s.record pending [] moved with ledger := (s.record pending [] moved).ledger ++ [row] } := by
  simp [State.record]

theorem Queue.ran {s : State} {fin rest : Dict String MergeItem} {key : String}
    {pending : MergeItem} (h : Queue s fin [] ((key, pending) :: rest)) {truthful : Prop}
    (hstopped : truthful → StoppedUnmoved s fin) {result : Attempt String} {moved : Bool}
    (hmerged : ∀ merged, result = .ok merged → moved = true)
    (hunmoved : truthful → ∀ stop, stop ≠ .uncaught → result = .error stop → moved = false) :
    Sound truthful (s.record pending (terminalRow pending result) moved) := by
  obtain ⟨item, hstate, hitem, hq⟩ := h.attempt moved
  have hself : key = pending.approvalId := (h.keys (key, pending) (by simp)).1
  have hkey : key ∉ fin.map (·.1) := by
    have hnodup := h.nodup
    rw [List.append_nil, List.map_append, List.nodup_append] at hnodup
    exact fun hmem => hnodup.2.2 key hmem key (by simp) rfl
  -- an attempt leaves the finished items as moved or unmoved as they were
  have hfin : truthful → StoppedUnmoved (s.record pending [] moved) fin := by
    intro ht m hm hms
    simp only [State.record]
    split
    · rw [List.mem_cons, not_or]
      refine ⟨?_, hstopped ht m hm hms⟩
      rw [← hself]
      rintro rfl
      exact hkey (List.mem_map_of_mem hm)
    · exact hstopped ht m hm hms
  -- a stop records its item; the item is unmoved where the attempt was
  have hstop (reason : String) (stop : Stop) (hne : stop ≠ .uncaught)
      (hresult : result = .error stop) :
      Sound truthful (s.record pending
        [eventRow "formation_merge_stopped" pending [("reason", reason)]] moved) := by
    rw [record_rows]
    refine ⟨_, _, _, hq.finish hstate ?_ (.inr rfl) (fun hne => absurd hne (by decide)), ?_⟩
    · rw [hself]
      rfl
    · intro ht m hm hms
      rcases List.mem_append.mp hm with hm | hm
      · exact hfin ht m hm hms
      · rw [List.mem_singleton.mp hm]
        have hunmovedKey : key ∉ s.moved := fun hmem => by
          have := h.moved key hmem
          rw [List.append_nil] at this
          exact hkey this
        simpa [State.record, hunmoved ht stop hne hresult] using hunmovedKey
  cases hresult : result with
  | error stop =>
      cases stop with
      | reason reason => exact hstop reason _ (by simp) hresult
      | ownership => exact hstop "ownership_unavailable" _ (by simp) hresult
      | uncaught => exact ⟨_, _, _, hq, hfin⟩
  | ok merged =>
      have hmoved := hmerged merged hresult
      rw [terminalRow, record_rows]
      refine ⟨_, _, _, hq.finish hstate ?_ (.inl rfl) (fun _ => ?_), ?_⟩
      · rw [hself]
        rfl
      · rw [hmoved, hself]
        simp [State.record]
      · intro ht m hm hms
        rcases List.mem_append.mp hm with hm | hm
        · exact hfin ht m hm hms
        · rw [List.mem_singleton.mp hm] at hms
          have hne : newState "formation_merge_merged" ≠ "stopped" := by decide
          exact absurd hms hne

theorem Sound.runOne {truthful : Prop} {s : State} (hs : Sound truthful s) {c : RunCall}
    (hc : truthful → c.updateMoves = false) : Sound truthful (Formation.runOne s c).2 := by
  obtain ⟨fin, act, wait, hq, hstopped⟩ := hs
  unfold Formation.runOne
  cases c.caller with
  | error reason => exact ⟨fin, act, wait, hq, hstopped⟩
  | ok pin =>
      simp only [hq.replays]
      split
      · exact ⟨fin, act, wait, hq, hstopped⟩
      · next key pending hfind =>
        split
        · exact ⟨fin, act, wait, hq, hstopped⟩
        · next hstate =>
          obtain ⟨rfl, rest, rfl⟩ := hq.pending hfind (not_not.mp hstate)
          split
          · exact ⟨fin, [], _, hq, hstopped⟩
          · next moved _ =>
            have hran := @Queue.ran s fin rest key pending hq truthful hstopped (.error .uncaught)
              moved (fun _ h => (nomatch h))
            exact hran fun _ stop hne hresult => absurd (Except.error.inj hresult).symm hne
          · obtain ⟨hmerged, hunmoved⟩ := @attempt_moved c pending
            exact hq.ran hstopped hmerged fun ht stop _ hresult =>
              hunmoved stop hresult (hc ht)

theorem Sound.step {truthful : Prop} {s s' : State} {op : Op} (hs : Sound truthful s)
    (h : Step s op s') (hop : truthful → op.truthful) : Sound truthful s' := by
  cases h with
  | enqueue valid fresh => exact hs.enqueue valid fresh
  | runOne => exact hs.runOne hop
  | other foreign =>
      obtain ⟨fin, act, wait, hq, hstopped⟩ := hs
      exact ⟨fin, act, wait, hq.other foreign, hstopped⟩

theorem Sound.imp {truthful truthful' : Prop} {s : State} (h : Sound truthful s)
    (himp : truthful' → truthful) : Sound truthful' s := by
  obtain ⟨fin, act, wait, hq, hstopped⟩ := h
  exact ⟨fin, act, wait, hq, fun ht => hstopped (himp ht)⟩

theorem run_sound {ops : List Op} {s : State} (h : Run Step {} ops s) :
    Sound (∀ op ∈ ops, op.truthful) s := by
  refine h.history_invariant (I := fun ops s => Sound (∀ op ∈ ops, op.truthful) s) ?_ ?_
  · exact ⟨[], [], [], queue_empty, fun _ m hm => (nomatch hm)⟩
  · intro ops s op s' _ hs hstep
    refine (hs.imp fun ht op' hop' => ht op' (by simp [hop'])).step hstep fun ht => ht op (by simp)

/-- In every reachable log: the replay accepts it; the attempts are a prefix of the approvals, which
are distinct; what ends an attempt follows it; two approvals for one subject are not both unstopped;
a merged item moved the target, and a stopped one did not, unless an `update-ref` that did not
report success had its effect all the same. -/
theorem merge_queue_sound {ops : List Op} {s : State} (hrun : Run Step {} ops s) :
    ∃ items, replay s.ledger = .ok items ∧
      attempts s.ledger <+: approvals s.ledger ∧ (approvals s.ledger).Nodup ∧
      (∀ before row after, s.ledger = before ++ row :: after → isTerminalRow row →
        ∃ id ∈ attempts before, rowId row.event row = some id) ∧
      (items.Pairwise fun m n =>
        m.2.state ≠ "stopped" → n.2.state ≠ "stopped" → m.2.subject ≠ n.2.subject) ∧
      (∀ m ∈ items, m.2.state = "merged" → m.1 ∈ s.moved) ∧
      ((∀ op ∈ ops, op.truthful) → ∀ m ∈ items, m.2.state = "stopped" → m.1 ∉ s.moved) := by
  obtain ⟨fin, act, wait, hq, hstopped⟩ := run_sound hrun
  -- only a finished item is merged or stopped
  have hfin (state : String) (hne : state ≠ "approved" ∧ state ≠ "attempted") :
      ∀ m ∈ fin ++ act ++ wait, m.2.state = state → m ∈ fin := by
    intro m hm hms
    rcases List.mem_append.mp hm with hm | hm
    · rcases List.mem_append.mp hm with hm | hm
      · exact hm
      · rcases hq.acting with rfl | ⟨n, rfl, hn⟩
        · cases hm
        · rw [List.mem_singleton.mp hm, hn] at hms
          exact absurd hms.symm hne.2
    · rw [hq.waiting m hm] at hms
      exact absurd hms.symm hne.1
  refine ⟨fin ++ act ++ wait, hq.replays, ?_, ?_, hq.ended, hq.subjects, ?_, ?_⟩
  · rw [hq.attempted, hq.approved, @List.map_append _ _ _ (fin ++ act) wait]
    exact List.prefix_append _ _
  · rw [hq.approved]
    exact hq.nodup
  · exact fun m hm hms => hq.merged m (hfin "merged" (by decide) m hm hms) hms
  · exact fun ht m hm hms => hstopped ht m (hfin "stopped" (by decide) m hm hms) hms

/-! ## A stopped merge that moved the target -/

def sampleSha : String := "aaaaaaaaaaaaaaaaaaaaaaaaaaaaaaaaaaaaaaaa"

def sampleApproval : EnqueueCall where
  caller := .ok "pin"
  branch := "feature"
  sha := sampleSha
  memberId := "bob"
  receiptId := "build-00000000000000000000000000000001"
  declared := true
  token := "00000000000000000000000000000001"
  approver := "orchestrator"
  pinDigest := ""
  now := ""
  crashes := false

/-- A repository in which every command answers, except for the last one. -/
def sampleGit (updateRef : GitOutcome) : Git
  | "--version" :: _ => .out "git version 2.40.1"
  | ["rev-parse", _, ref] =>
      if ref = "refs/heads/feature^\x7bcommit\x7d" then .out sampleSha
      else .out "bbbbbbbbbbbbbbbbbbbbbbbbbbbbbbbbbbbbbbbb"
  | "symbolic-ref" :: _ => .refused 1
  | "diff-tree" :: _ => .out "src/a.py"
  | "merge-tree" :: _ => .out "cccccccccccccccccccccccccccccccccccccccc"
  | "commit-tree" :: _ => .out "dddddddddddddddddddddddddddddddddddddddd"
  | "update-ref" :: _ => updateRef
  | _ => .out ""

def sampleRun (updateRef : GitOutcome) (moves : Bool) : RunCall where
  caller := .ok "pin"
  target := "integration"
  checkReceipt _ := pure ()
  ownerOf _ := pure (some "bob")
  prepareGit := sampleGit updateRef
  applyGit := sampleGit updateRef
  updateMoves := moves
  crash := none

/-- The state after an approval and one attempt of it. -/
def sampleState (updateRef : GitOutcome) (moves : Bool) : State :=
  (runOne (enqueue {} sampleApproval).2 (sampleRun updateRef moves)).2

theorem sample_steps (updateRef : GitOutcome) (moves : Bool) :
    Run Step {} [.enqueue sampleApproval, .runOne (sampleRun updateRef moves)]
      (sampleState updateRef moves) := by
  refine (Run.single (.enqueue (by decide) fun items h => ?_)).snoc .runOne
  obtain rfl := Except.ok.inj h
  rfl

theorem merge_queue_sound_sample : ∃ items,
    replay (sampleState (.out "") false).ledger = .ok items ∧
      ∀ m ∈ items, m.2.state = "merged" → m.1 ∈ (sampleState (.out "") false).moved := by
  obtain ⟨items, hitems, _, _, _, _, hmerged, _⟩ :=
    merge_queue_sound (sample_steps (.out "") false)
  exact ⟨items, hitems, hmerged⟩

/-- An `update-ref` that is stopped at its time limit after it moved the ref is recorded as a
stopped attempt. -/
theorem stopped_but_moved : ¬ ∀ (ops : List Op) (s : State) (items : Dict String MergeItem),
    Run Step {} ops s → replay s.ledger = .ok items →
    ∀ m ∈ items, m.2.state = "stopped" → m.1 ∉ s.moved := by
  intro h
  have hlog : (replay (sampleState .unavailable true).ledger).toOption.any (fun items =>
      items.any fun m => m.2.state = "stopped" ∧ m.1 ∈ (sampleState .unavailable true).moved) =
      true := by
    decide +kernel
  obtain ⟨items, hreplay, hany⟩ := (Option.any_eq_true _ _).mp hlog
  obtain ⟨m, hm, hboth⟩ := List.any_eq_true.mp hany
  obtain ⟨hstate, hmoved⟩ := of_decide_eq_true hboth
  exact h _ _ items (sample_steps .unavailable true) (Except.ok_of_toOption hreplay) m hm hstate
    hmoved

/-! ## An attempt without an end -/

theorem Queue.enqueued {s : State} {fin act wait : Dict String MergeItem} (h : Queue s fin act wait)
    {c : EnqueueCall} (hvalid : isApprovalId c.token = true)
    (hfresh : ∀ items, replay s.ledger = .ok items → Dict.has items c.token = false) :
    (Formation.enqueue s c).2.moved = s.moved ∧
      ∃ wait', Queue (Formation.enqueue s c).2 fin act wait' := by
  unfold Formation.enqueue
  cases c.caller with
  | error reason => exact ⟨rfl, wait, h⟩
  | ok pin =>
      simp only [h.replays]
      split
      · exact ⟨rfl, wait, h⟩
      · split
        · exact ⟨rfl, wait, h⟩
        · split
          · exact ⟨rfl, wait, h⟩
          · next hnone =>
            split
            · exact ⟨rfl, wait, h⟩
            · refine ⟨rfl, _, h.enqueue hvalid (hfresh _ h.replays) fun m hm hstate hsubject => ?_⟩
              have := List.find?_eq_none.mp hnone m hm
              simp [hstate, hsubject] at this

theorem Queue.standstill {s : State} {fin wait : Dict String MergeItem} {m : String × MergeItem}
    (h : Queue s fin [m] wait) {c : RunCall} {pin : String} (hcaller : c.caller = .ok pin) :
    Formation.runOne s c = (.error "requires_reconciliation", s) := by
  have hm : m.2.state = "attempted" := by
    obtain hnil | ⟨n, hn, hstate⟩ := h.acting
    · cases hnil
    · rwa [← List.singleton_inj.mp hn] at hstate
  have hfin : fin.find? (fun m => isPending m.2) = none := by
    refine List.find?_eq_none.mpr fun n hn => ?_
    rcases h.finished n hn with hs | hs <;> simp [isPending, hs]
  have hfind : (fin ++ [m] ++ wait).find? (fun m => isPending m.2) = some m := by
    rw [List.append_assoc, List.find?_append, hfin, Option.none_or, List.singleton_append,
      List.find?_cons_of_pos (by simp [isPending, hm])]
  unfold Formation.runOne
  simp only [hcaller, h.replays, hfind]
  rw [if_pos (by rw [hm]; decide)]
  rfl

/-- While the end of an attempt is not on record the queue stands still: approvals are still taken,
but nothing is attempted, the target is not moved, and every run asks for reconciliation. -/
theorem unended_attempt_blocks {ops later : List Op} {s s' : State} (hrun : Run Step {} ops s)
    {items : Dict String MergeItem} (hitems : replay s.ledger = .ok items)
    {m : String × MergeItem} (hm : m ∈ items) (hstate : m.2.state = "attempted")
    (hlater : Run Step s later s') :
    attempts s'.ledger = attempts s.ledger ∧ s'.moved = s.moved ∧
      (∃ items', replay s'.ledger = .ok items' ∧ m ∈ items') ∧
      ∀ (c : RunCall) (pin : String), c.caller = .ok pin →
        runOne s' c = (.error "requires_reconciliation", s') := by
  obtain ⟨fin, act, wait, hq, -⟩ := run_sound hrun
  obtain rfl := Except.ok.inj (hitems.symm.trans hq.replays)
  -- a finished item is merged or stopped, and one that waits is approved
  have hact : act = [m] := by
    rcases List.mem_append.mp hm with hm | hm
    · rcases List.mem_append.mp hm with hm | hm
      · rcases hq.finished m hm with hs | hs
        · rw [hs] at hstate
          exact absurd hstate (by decide)
        · rw [hs] at hstate
          exact absurd hstate (by decide)
      · rcases hq.acting with rfl | ⟨n, rfl, -⟩
        · cases hm
        · rw [List.mem_singleton.mp hm]
    · rw [hq.waiting m hm] at hstate
      exact absurd hstate (by decide)
  subst hact
  obtain ⟨hmoved, wait', hq'⟩ : s'.moved = s.moved ∧ ∃ wait', Queue s' fin [m] wait' := by
    refine hlater.invariant (I := fun s' => s'.moved = s.moved ∧ ∃ wait', Queue s' fin [m] wait')
      ⟨rfl, wait, hq⟩ ?_
    rintro mid op next ⟨hmoved, wait', hmid⟩ hstep
    cases hstep with
    | enqueue valid fresh =>
        obtain ⟨hsame, hnext⟩ := hmid.enqueued valid fresh
        exact ⟨hsame.trans hmoved, hnext⟩
    | @runOne c =>
        cases hcaller : c.caller with
        | error reason =>
            have hsame : (Formation.runOne mid c).2 = mid := by rw [Formation.runOne, hcaller]
            rw [hsame]
            exact ⟨hmoved, wait', hmid⟩
        | ok pin =>
            rw [hmid.standstill hcaller]
            exact ⟨hmoved, wait', hmid⟩
    | other foreign => exact ⟨hmoved, wait', hmid.other foreign⟩
  refine ⟨?_, hmoved, ⟨_, hq'.replays, ?_⟩, fun c pin hcaller => hq'.standstill hcaller⟩
  · rw [hq'.attempted, hq.attempted]
  · exact List.mem_append_left _ (List.mem_append_right _ (List.mem_singleton_self m))

/-- The state after a call that ended when its attempt was recorded. -/
def sampleCrashed : State :=
  (runOne (enqueue {} sampleApproval).2
    { sampleRun (.out "") false with crash := some (.afterAttempt true) }).2

theorem unended_attempt_blocks_sample : runOne sampleCrashed (sampleRun (.out "") false) =
    (.error "requires_reconciliation", sampleCrashed) := by
  have hrun : Run Step {} [.enqueue sampleApproval, .runOne
      { sampleRun (.out "") false with crash := some (.afterAttempt true) }] sampleCrashed := by
    refine (Run.single (.enqueue (by decide) fun items h => ?_)).snoc .runOne
    obtain rfl := Except.ok.inj h
    rfl
  have hlog : (replay sampleCrashed.ledger).toOption.any (fun items =>
      items.any fun m => m.2.state = "attempted") = true := by
    decide +kernel
  obtain ⟨items, hreplay, hany⟩ := (Option.any_eq_true _ _).mp hlog
  obtain ⟨m, hm, hstate⟩ := List.any_eq_true.mp hany
  obtain ⟨-, -, -, hblocked⟩ := unended_attempt_blocks hrun (Except.ok_of_toOption hreplay) hm
    (of_decide_eq_true hstate) .nil
  exact hblocked _ "pin" rfl

end TrwMcp.Formation
