import TrwMcp.Comms.AhrAgree

/-!
# Endpoint fencing

Any number of processes share the endpoints table. A call is one transaction; an enroll publishes
its incarnation in the memory of the process in a later step, and a process may restart in between.
A row changes its incarnation only to one that was never issued before, so an incarnation that lost
the row never holds it again.
-/

namespace TrwMcp.Comms

open Handoff Lib

/-- What a process asks of the table; `token` is what `secrets.token_hex` would give. -/
inductive Attempt where
  | enroll (token : String)
  | heartbeat
  | receiver (renews : Bool)
  | touch (refuseDisplaced : Bool)

/-- The table, the memory of each process, the incarnations it has committed and not yet published,
and the tokens that have been used. -/
structure Processes (P T : Type) where
  db : Db T
  memory : P → Memory
  inFlight : P → OwnershipKey → Option String
  issued : List String

inductive FenceEvent (P T : Type) where
  | call (process : P) (binding : CallerBinding) (attempt : Attempt) (now : T) (leaseTtl : Nat)
  | confirm (process : P) (binding : CallerBinding)
  | restart (process : P)

def FenceEvent.isRestart {P T : Type} [DecidableEq P] (p : P) : FenceEvent P T → Bool
  | .restart process => process = p
  | _ => false

section

variable {P T : Type} [Clock T]

/-- One call: the memory after it, and the table and the incarnation to publish, or a refusal. -/
def answer (db : Db T) (memory : Memory) (binding : CallerBinding) (now : T) (leaseTtl : Nat) :
    Attempt → Memory × Mail (Db T × Option String)
  | .enroll token =>
      match enroll db memory binding token now leaseTtl with
      | (memory, .error e) => (memory, .error e)
      | (memory, .ok (db, incarnation)) => (memory, .ok (db, some incarnation))
  | .heartbeat =>
      match heartbeat db memory binding now leaseTtl with
      | (memory, .error e) => (memory, .error e)
      | (memory, .ok db) => (memory, .ok (db, none))
  | .receiver renews =>
      match receiverIncarnation db memory binding now leaseTtl renews with
      | (memory, .error e) => (memory, .error e)
      | (memory, .ok (db, _)) => (memory, .ok (db, none))
  | .touch refuseDisplaced =>
      match touch db memory binding now leaseTtl refuseDisplaced with
      | (memory, .error e) => (memory, .error e)
      | (memory, .ok db) => (memory, .ok (db, none))

variable [DecidableEq P]

def Processes.empty : Processes P T :=
  { db := {}, memory := fun _ => {}, inFlight := fun _ _ => none, issued := [] }

/-- The published incarnation of a process. -/
def Processes.mine (s : Processes P T) (p : P) (binding : CallerBinding) : Option String :=
  (s.memory p).mine binding

def Processes.remember (s : Processes P T) (p : P) (memory : Memory) : Processes P T :=
  { s with memory := Function.update s.memory p memory }

def Processes.setInFlight (s : Processes P T) (p : P) (binding : CallerBinding)
    (incarnation : Option String) : Processes P T :=
  { s with
    inFlight := Function.update s.inFlight p
      (Function.update (s.inFlight p) (ownershipKey binding) incarnation) }

/-- One transaction, one publication or one restart. A transaction may be refused, may be rolled
back after its endpoint call, or commits; one enroll a binding is in flight in a process. -/
inductive FenceStep : Processes P T → FenceEvent P T → Processes P T → Prop
  | unchanged {s : Processes P T} {p : P} {b : CallerBinding} {a : Attempt} {now : T} {ttl : Nat}
      {memory : Memory} {result : Mail (Db T × Option String)}
      (h : answer s.db (s.memory p) b now ttl a = (memory, result)) :
      FenceStep s (.call p b a now ttl) (s.remember p memory)
  | done {s : Processes P T} {p : P} {b : CallerBinding} {a : Attempt} {now : T} {ttl : Nat}
      {memory : Memory} {db : Db T}
      (h : answer s.db (s.memory p) b now ttl a = (memory, .ok (db, none))) :
      FenceStep s (.call p b a now ttl) { s.remember p memory with db }
  | enrolled {s : Processes P T} {p : P} {b : CallerBinding} {token incarnation : String} {now : T}
      {ttl : Nat} {memory : Memory} {db : Db T}
      (h : answer s.db (s.memory p) b now ttl (.enroll token) =
        (memory, .ok (db, some incarnation)))
      (hidle : s.inFlight p (ownershipKey b) = none) (hfresh : token ∉ s.issued) :
      FenceStep s (.call p b (.enroll token) now ttl)
        { (s.remember p memory).setInFlight p b (some incarnation) with
          db, issued := token :: s.issued }
  | confirm {s : Processes P T} {p : P} {b : CallerBinding} {incarnation : String}
      (h : s.inFlight p (ownershipKey b) = some incarnation) :
      FenceStep s (.confirm p b)
        ((s.remember p (confirmEnrollment (s.memory p) b incarnation)).setInFlight p b none)
  | restart {s : Processes P T} {p : P} :
      FenceStep s (.restart p)
        { s.remember p {} with inFlight := Function.update s.inFlight p fun _ => none }

end

/-! ## What a call does -/

section

variable {T : Type}

theorem current_ok {db : Db T} {memory memory' : Memory} {b : CallerBinding} {requireRow : Bool}
    {row : Option (EndpointRow T)} {mine : Option String}
    (h : current db memory b requireRow = (memory', .ok (row, mine))) :
    memory' = memory ∧ row = fetchRow db b ∧ mine = memory.mine b ∧
      isDisplaced memory b (fetchRow db b) = false := by
  unfold current at h
  simp only at h
  split_ifs at h with hdisplaced hrow
  · simp at h
  · simp at h
  · simp only [Prod.mk.injEq, Except.ok.injEq] at h
    exact ⟨h.1.symm, h.2.1.symm, h.2.2.symm, by simpa using hdisplaced⟩

theorem current_incarnations (db : Db T) (memory : Memory) (b : CallerBinding)
    (requireRow : Bool) :
    (current db memory b requireRow).1.incarnations = memory.incarnations := by
  unfold current
  simp only
  split_ifs <;> rfl

theorem incarnation_eq {memory : Memory} {b : CallerBinding} {row : EndpointRow T} {i : String}
    (h : isDisplaced memory b (some row) = false) (hmine : memory.mine b = some i) :
    row.incarnation = i := by
  simp only [isDisplaced, hmine, Bool.or_eq_false_iff, bne_eq_false_iff_eq] at h
  exact h.2

theorem held_ok {db : Db T} {memory memory' : Memory} {b : CallerBinding} {row : EndpointRow T}
    {mine : String} (h : held db memory b = (memory', .ok (row, mine))) :
    memory' = memory ∧ fetchRow db b = some row ∧ memory.mine b = some mine ∧
      row.incarnation = mine := by
  unfold held at h
  cases hcurrent : current db memory b true with
  | mk m r =>
      cases r with
      | error e => simp [hcurrent] at h
      | ok pair =>
          obtain ⟨hm, hrow, hmine, hfree⟩ := current_ok hcurrent
          obtain ⟨row', mine'⟩ := pair
          cases row' with
          | none => simp [hcurrent] at h
          | some row' =>
              cases mine' with
              | none => simp [hcurrent] at h
              | some mine' =>
                  simp only [hcurrent, Prod.mk.injEq, Except.ok.injEq] at h
                  obtain ⟨rfl, rfl, rfl⟩ := h
                  refine ⟨hm, hrow.symm, hmine.symm, ?_⟩
                  rw [← hrow] at hfree
                  exact incarnation_eq hfree hmine.symm

theorem held_incarnations (db : Db T) (memory : Memory) (b : CallerBinding) :
    (held db memory b).1.incarnations = memory.incarnations := by
  have hcurrent := current_incarnations db memory b true
  unfold held
  cases hc : current db memory b true with
  | mk m r =>
      rw [hc] at hcurrent
      rcases r with e | ⟨_ | row, _ | mine⟩ <;> exact hcurrent

theorem current_displaced {db : Db T} {memory : Memory} {b : CallerBinding} {requireRow : Bool}
    (h : isDisplaced memory b (fetchRow db b) = true) :
    ∃ memory', current db memory b requireRow = (memory', .error fenced) := by
  unfold current
  simp only
  rw [if_pos h]
  exact ⟨_, rfl⟩

end

section

variable {P T : Type} [Clock T]

/-- What fencing reads of a row. -/
def rowOf (db : Db T) (k : String × String) : Option (String × Nat) :=
  (Dict.lookup db.endpoints k).map fun row => (row.incarnation, row.generation)

theorem rowOf_renew (db : Db T) (b : CallerBinding) (now : T) (ttl : Nat) :
    rowOf (renew db b now ttl) = rowOf db := by
  funext k
  unfold rowOf renew
  rw [Dict.lookup_mapValues, Option.map_map]
  congr 1
  funext row
  simp only [Function.comp_apply]
  split_ifs <;> rfl

/-- What a completed enroll writes: its own incarnation again, or the token in a row that is new or
one generation on. -/
theorem enroll_ok {db db' : Db T} {memory memory' : Memory} {b : CallerBinding}
    {token incarnation : String} {now : T} {ttl : Nat}
    (h : enroll db memory b token now ttl = (memory', .ok (db', incarnation))) :
    memory' = memory ∧ ∃ generation,
      (∀ k, rowOf db' k = if k = (b.groupId, b.memberId) then some (incarnation, generation)
        else rowOf db k) ∧
      ((rowOf db (b.groupId, b.memberId) = some (incarnation, generation) ∧
          memory.mine b = some incarnation) ∨
        (incarnation = token ∧
          ((memory.mine b = none ∧ ∃ old g, rowOf db (b.groupId, b.memberId) = some (old, g) ∧
              generation = g + 1) ∨
            (rowOf db (b.groupId, b.memberId) = none ∧ generation = 1)))) := by
  unfold enroll at h
  cases hcurrent : current db memory b false with
  | mk m r =>
      cases r with
      | error e => simp [hcurrent] at h
      | ok pair =>
          obtain ⟨row, mine⟩ := pair
          obtain ⟨hm, hrow, hmine, hfree⟩ := current_ok hcurrent
          simp only [hcurrent] at h
          split_ifs at h with hlarge
          · simp at h
          simp only [Prod.mk.injEq, Except.ok.injEq] at h
          obtain ⟨rfl, rfl, rfl⟩ := h
          refine ⟨hm, (enrolledRow b row mine token now ttl).generation, fun k => ?_, ?_⟩
          · unfold rowOf
            rw [Dict.lookup_set]
            split_ifs <;> rfl
          · have hrowOf : rowOf db (b.groupId, b.memberId) =
                row.map fun row => (row.incarnation, row.generation) := by
              rw [hrow]
              rfl
            rw [hrowOf]
            cases row with
            | none => exact .inr ⟨rfl, .inr ⟨rfl, rfl⟩⟩
            | some row =>
                cases mine with
                | none => exact .inr ⟨rfl, .inl ⟨hmine.symm, _, _, rfl, rfl⟩⟩
                | some mine =>
                    rw [← hrow] at hfree
                    have heq := incarnation_eq hfree hmine.symm
                    refine .inl ⟨?_, hmine.symm⟩
                    change some (row.incarnation, row.generation) = some (mine, row.generation)
                    rw [heq]

theorem enroll_incarnations (db : Db T) (memory : Memory) (b : CallerBinding) (token : String)
    (now : T) (ttl : Nat) :
    (enroll db memory b token now ttl).1.incarnations = memory.incarnations := by
  have hcurrent := current_incarnations db memory b false
  unfold enroll
  cases hc : current db memory b false with
  | mk m r =>
      rw [hc] at hcurrent
      rcases r with e | ⟨row, mine⟩
      · exact hcurrent
      · simp only
        split_ifs <;> exact hcurrent

theorem touch_incarnations (db : Db T) (memory : Memory) (b : CallerBinding) (now : T) (ttl : Nat)
    (refuseDisplaced : Bool) :
    (touch db memory b now ttl refuseDisplaced).1.incarnations = memory.incarnations := by
  have hcurrent := current_incarnations db memory b false
  unfold touch
  cases refuseDisplaced with
  | false =>
      simp only [Bool.not_false, if_true]
      split_ifs <;> rfl
  | true =>
      simp only [Bool.not_true, Bool.false_eq_true, if_false]
      cases hc : current db memory b false with
      | mk m r =>
          rw [hc] at hcurrent
          rcases r with e | ⟨row, mine⟩ <;> exact hcurrent

theorem answer_incarnations (db : Db T) (memory : Memory) (b : CallerBinding) (now : T) (ttl : Nat)
    (a : Attempt) : (answer db memory b now ttl a).1.incarnations = memory.incarnations := by
  unfold answer
  cases a with
  | enroll token =>
      have h := enroll_incarnations db memory b token now ttl
      simp only
      cases he : enroll db memory b token now ttl with
      | mk m r =>
          rw [he] at h
          rcases r with e | ⟨db', i⟩ <;> exact h
  | heartbeat =>
      have h := held_incarnations db memory b
      simp only [heartbeat]
      cases hh : held db memory b with
      | mk m r =>
          rw [hh] at h
          rcases r with e | ⟨row, mine⟩ <;> exact h
  | receiver renews =>
      have h := held_incarnations db memory b
      simp only [receiverIncarnation]
      cases hh : held db memory b with
      | mk m r =>
          rw [hh] at h
          rcases r with e | ⟨row, mine⟩ <;> exact h
  | touch refuseDisplaced =>
      have h := touch_incarnations db memory b now ttl refuseDisplaced
      simp only
      cases ht : touch db memory b now ttl refuseDisplaced with
      | mk m r =>
          rw [ht] at h
          rcases r with e | db' <;> exact h

theorem touch_ok {db db' : Db T} {memory memory' : Memory} {b : CallerBinding} {now : T} {ttl : Nat}
    {refuseDisplaced : Bool}
    (h : touch db memory b now ttl refuseDisplaced = (memory', .ok db')) : rowOf db' = rowOf db := by
  unfold touch at h
  cases refuseDisplaced with
  | false =>
      simp only [Bool.not_false, if_true] at h
      split_ifs at h
      · simp only [Prod.mk.injEq, Except.ok.injEq] at h
        rw [← h.2, rowOf_renew]
      · simp only [Prod.mk.injEq, Except.ok.injEq] at h
        rw [← h.2]
  | true =>
      simp only [Bool.not_true, Bool.false_eq_true, if_false] at h
      cases hc : current db memory b false with
      | mk m r =>
          cases r with
          | error e => simp [hc] at h
          | ok pair =>
              simp only [hc, Prod.mk.injEq, Except.ok.injEq] at h
              rw [← h.2]
              split_ifs
              · exact rowOf_renew db b now ttl
              · rfl

theorem answer_enroll {db db' : Db T} {memory memory' : Memory} {b : CallerBinding}
    {token incarnation : String} {now : T} {ttl : Nat}
    (h : answer db memory b now ttl (.enroll token) = (memory', .ok (db', some incarnation))) :
    enroll db memory b token now ttl = (memory', .ok (db', incarnation)) := by
  unfold answer at h
  simp only at h
  cases he : enroll db memory b token now ttl with
  | mk m r =>
      rcases r with e | ⟨db'', i⟩
      · simp [he] at h
      · simp only [he, Prod.mk.injEq, Except.ok.injEq, Option.some.injEq] at h
        obtain ⟨rfl, rfl, rfl⟩ := h
        rfl

theorem answer_none {db db' : Db T} {memory memory' : Memory} {b : CallerBinding} {now : T}
    {ttl : Nat} {a : Attempt} (h : answer db memory b now ttl a = (memory', .ok (db', none))) :
    rowOf db' = rowOf db := by
  unfold answer at h
  cases a with
  | enroll token =>
      cases he : enroll db memory b token now ttl with
      | mk m r => rcases r with e | ⟨db', i⟩ <;> simp [he] at h
  | heartbeat =>
      simp only [heartbeat] at h
      cases hh : held db memory b with
      | mk m r =>
          rcases r with e | ⟨row, mine⟩
          · simp [hh] at h
          · simp only [hh, Prod.mk.injEq, Except.ok.injEq] at h
            rw [← h.2.1, rowOf_renew]
  | receiver renews =>
      simp only [receiverIncarnation] at h
      cases hh : held db memory b with
      | mk m r =>
          rcases r with e | ⟨row, mine⟩
          · simp [hh] at h
          · simp only [hh, Prod.mk.injEq, Except.ok.injEq] at h
            rw [← h.2.1]
            split_ifs
            · exact rowOf_renew db b now ttl
            · rfl
  | touch refuseDisplaced =>
      cases ht : touch db memory b now ttl refuseDisplaced with
      | mk m r =>
          rcases r with e | db''
          · simp [ht] at h
          · simp only [ht, Prod.mk.injEq, Except.ok.injEq] at h
            rw [← h.2.1]
            exact touch_ok ht

/-! ## What a step does -/

variable [DecidableEq P]

/-- The row of a member keeps its incarnation and its generation, or is new, or is taken over by an
incarnation never issued before, one generation on. -/
inductive RowStep (issued issued' : List String) :
    Option (String × Nat) → Option (String × Nat) → Prop
  | same (row : Option (String × Nat)) : RowStep issued issued' row row
  | first {i : String} (hfresh : i ∉ issued) (hissued : i ∈ issued') :
      RowStep issued issued' none (some (i, 1))
  | takeover {i j : String} {g : Nat} (hfresh : i ∉ issued) (hissued : i ∈ issued') :
      RowStep issued issued' (some (j, g)) (some (i, g + 1))

variable {s s' : Processes P T} {ev : FenceEvent P T}

theorem step_row (h : FenceStep s ev s') (k : String × String) :
    RowStep s.issued s'.issued (rowOf s.db k) (rowOf s'.db k) ∧ s.issued ⊆ s'.issued := by
  cases h with
  | unchanged _ => exact ⟨.same _, List.Subset.refl _⟩
  | done hanswer =>
      refine ⟨?_, List.Subset.refl _⟩
      rw [answer_none hanswer]
      exact .same _
  | @enrolled p b token incarnation now ttl memory db hanswer hidle hfresh =>
      refine ⟨?_, List.subset_cons_self _ _⟩
      obtain ⟨-, generation, hrows, hcases⟩ := enroll_ok (answer_enroll hanswer)
      change RowStep _ (token :: s.issued) _ (rowOf db k)
      rw [hrows]
      split_ifs with hk
      · subst hk
        rcases hcases with ⟨hrow, -⟩ | ⟨rfl, ⟨-, old, g, hrow, rfl⟩ | ⟨hrow, rfl⟩⟩
        · rw [hrow]
          exact .same _
        · rw [hrow]
          exact .takeover hfresh (by simp)
        · rw [hrow]
          exact .first hfresh (by simp)
      · exact .same _
  | confirm _ => exact ⟨.same _, List.Subset.refl _⟩
  | restart => exact ⟨.same _, List.Subset.refl _⟩

omit [Clock T] in
theorem mine_remember (s : Processes P T) (p q : P) (memory : Memory) (b : CallerBinding) :
    (s.remember p memory).mine q b = if q = p then memory.mine b else s.mine q b := by
  unfold Processes.mine Processes.remember
  simp only [Function.update_apply]
  split_ifs <;> rfl

theorem mine_of_incarnations {memory memory' : Memory}
    (h : memory'.incarnations = memory.incarnations) (b : CallerBinding) :
    memory'.mine b = memory.mine b := by
  rw [Memory.mine, Memory.mine, h]

theorem mine_remember_answer {a : Attempt} {p : P} {b : CallerBinding} {now : T} {ttl : Nat}
    {memory : Memory} {result : Mail (Db T × Option String)}
    (h : answer s.db (s.memory p) b now ttl a = (memory, result)) (q : P) (c : CallerBinding) :
    (s.remember p memory).mine q c = s.mine q c := by
  have hinc := answer_incarnations s.db (s.memory p) b now ttl a
  rw [h] at hinc
  rw [mine_remember]
  split_ifs with hq
  · rw [mine_of_incarnations hinc, hq]
    rfl
  · rfl

/-! ## The invariant -/

/-- Every incarnation of a row, published or in flight was issued; a process has published or in
flight at most one under a binding, and its row exists. -/
structure Fenced (s : Processes P T) : Prop where
  rows : ∀ k i g, rowOf s.db k = some (i, g) → i ∈ s.issued
  mine : ∀ p b i, s.mine p b = some i →
    i ∈ s.issued ∧ rowOf s.db (b.groupId, b.memberId) ≠ none
  inFlight : ∀ p b i, s.inFlight p (ownershipKey b) = some i →
    i ∈ s.issued ∧ rowOf s.db (b.groupId, b.memberId) ≠ none ∧
      ∀ j, s.mine p b = some j → j = i

omit [Clock T] [DecidableEq P] in
theorem fenced_empty : Fenced (Processes.empty : Processes P T) where
  rows := by
    intro k i g h
    cases h
  mine := by
    intro p b i h
    cases h
  inFlight := by
    intro p b i h
    cases h

theorem step_row_exists (h : FenceStep s ev s') {k : String × String}
    (hrow : rowOf s.db k ≠ none) : rowOf s'.db k ≠ none := by
  obtain ⟨hstep, -⟩ := step_row h k
  intro hnone
  rw [hnone] at hstep
  generalize hold : rowOf s.db k = old at hstep hrow
  cases hstep with
  | same => exact hrow rfl

omit [Clock T] in
theorem inFlight_set (s : Processes P T) (p q : P) (b c : CallerBinding) (i : Option String) :
    (s.setInFlight p b i).inFlight q (ownershipKey c) =
      if q = p ∧ ownershipKey c = ownershipKey b then i else s.inFlight q (ownershipKey c) := by
  unfold Processes.setInFlight
  simp only [Function.update_apply]
  by_cases hq : q = p
  · subst hq
    by_cases hc : ownershipKey c = ownershipKey b
    · simp [hc]
    · simp [hc]
  · simp [hq]

theorem mine_confirm (memory : Memory) (b c : CallerBinding) (i : String) :
    (confirmEnrollment memory b i).mine c =
      if ownershipKey c = ownershipKey b then some i else memory.mine c := by
  unfold Memory.mine confirmEnrollment
  rw [Dict.lookup_set]

theorem rowKey_eq {b c : CallerBinding} (h : ownershipKey c = ownershipKey b) :
    (c.groupId, c.memberId) = (b.groupId, b.memberId) := by
  simp only [ownershipKey, Prod.mk.injEq] at h
  rw [h.1, h.2.1]

theorem mine_eq {memory : Memory} {b c : CallerBinding} (h : ownershipKey c = ownershipKey b) :
    memory.mine c = memory.mine b := by
  rw [Memory.mine, Memory.mine, h]

theorem Fenced.step (hf : Fenced s) (h : FenceStep s ev s') : Fenced s' := by
  have hsub : s.issued ⊆ s'.issued := (step_row h ("", "")).2
  have hrows : ∀ k i g, rowOf s'.db k = some (i, g) → i ∈ s'.issued := by
    intro k i g hrow
    obtain ⟨hstep, -⟩ := step_row h k
    rw [hrow] at hstep
    generalize hold : rowOf s.db k = old at hstep
    cases hstep with
    | same => exact hsub (hf.rows k i g hold)
    | first _ hissued => exact hissued
    | takeover _ hissued => exact hissued
  have hmine : ∀ p b i, s.mine p b = some i →
      i ∈ s'.issued ∧ rowOf s'.db (b.groupId, b.memberId) ≠ none := fun p b i hi =>
    ⟨hsub (hf.mine p b i hi).1, step_row_exists h (hf.mine p b i hi).2⟩
  have hflight : ∀ p b i, s.inFlight p (ownershipKey b) = some i →
      i ∈ s'.issued ∧ rowOf s'.db (b.groupId, b.memberId) ≠ none := fun p b i hi =>
    ⟨hsub (hf.inFlight p b i hi).1, step_row_exists h (hf.inFlight p b i hi).2.1⟩
  refine ⟨hrows, ?_, ?_⟩
  · intro p b i hi
    cases h with
    | unchanged hanswer => exact hmine p b i (by rwa [mine_remember_answer hanswer] at hi)
    | done hanswer =>
        refine hmine p b i ?_
        rw [← mine_remember_answer hanswer]
        exact hi
    | enrolled hanswer _ _ =>
        refine hmine p b i ?_
        rw [← mine_remember_answer hanswer]
        exact hi
    | @confirm q c incarnation hconfirm =>
        change (s.remember q _).mine p b = some i at hi
        rw [mine_remember] at hi
        split_ifs at hi with hp
        · rw [mine_confirm] at hi
          split_ifs at hi with hc
          · obtain rfl := Option.some.inj hi
            rw [rowKey_eq hc]
            exact hflight q c _ hconfirm
          · exact hmine p b i (hp ▸ hi)
        · exact hmine p b i hi
    | @restart q =>
        change (s.remember q _).mine p b = some i at hi
        rw [mine_remember] at hi
        split_ifs at hi with hp
        · cases hi
        · exact hmine p b i hi
  · intro p b i hi
    cases h with
    | unchanged hanswer =>
        refine ⟨(hflight p b i hi).1, (hflight p b i hi).2, fun j hj => ?_⟩
        rw [mine_remember_answer hanswer] at hj
        exact (hf.inFlight p b i hi).2.2 j hj
    | done hanswer =>
        refine ⟨(hflight p b i hi).1, (hflight p b i hi).2, fun j hj => ?_⟩
        refine (hf.inFlight p b i hi).2.2 j ?_
        rw [← mine_remember_answer hanswer]
        exact hj
    | @enrolled q c token incarnation now ttl memory db hanswer hidle hfresh =>
        have hminej : ∀ j, ((s.remember q memory).setInFlight q c (some incarnation)).mine p b =
            some j → s.mine p b = some j := by
          intro j hj
          rw [← mine_remember_answer hanswer]
          exact hj
        have hall : i ∈ token :: s.issued ∧ rowOf db (b.groupId, b.memberId) ≠ none ∧
            ∀ j, s.mine p b = some j → j = i := by
          change ((s.remember q memory).setInFlight q c (some incarnation)).inFlight p
            (ownershipKey b) = some i at hi
          rw [inFlight_set] at hi
          split_ifs at hi with hkey
          · obtain ⟨rfl, hkey⟩ := hkey
            obtain rfl := Option.some.inj hi
            obtain ⟨-, generation, hwritten, hcases⟩ := enroll_ok (answer_enroll hanswer)
            have hmem : (s.memory p).mine c = s.mine p b := (mine_eq hkey).symm
            rw [rowKey_eq hkey]
            refine ⟨?_, ?_, fun j hj => ?_⟩
            · rcases hcases with ⟨hrow, -⟩ | ⟨rfl, -⟩
              · exact List.mem_cons_of_mem _ (hf.rows _ _ _ hrow)
              · simp
            · rw [hwritten, if_pos rfl]
              simp
            · rw [hmem, hj] at hcases
              rcases hcases with ⟨-, hsame⟩ | ⟨-, ⟨hnone, -⟩ | ⟨hnone, -⟩⟩
              · exact Option.some.inj hsame
              · cases hnone
              · exact absurd hnone (rowKey_eq hkey ▸ (hf.mine p b j hj).2)
          · exact ⟨(hflight p b i hi).1, (hflight p b i hi).2, (hf.inFlight p b i hi).2.2⟩
        exact ⟨hall.1, hall.2.1, fun j hj => hall.2.2 j (hminej j hj)⟩
    | @confirm q c incarnation hconfirm =>
        rw [inFlight_set] at hi
        split_ifs at hi with hkey
        refine ⟨(hflight p b i hi).1, (hflight p b i hi).2, fun j hj => ?_⟩
        change (s.remember q _).mine p b = some j at hj
        rw [mine_remember] at hj
        split_ifs at hj with hp
        · rw [mine_confirm, if_neg fun hc => hkey ⟨hp, hc⟩] at hj
          exact (hf.inFlight p b i hi).2.2 j (hp ▸ hj)
        · exact (hf.inFlight p b i hi).2.2 j hj
    | @restart q =>
        change Function.update s.inFlight q (fun _ => none) p (ownershipKey b) = some i at hi
        rw [Function.update_apply] at hi
        split_ifs at hi with hp
        refine ⟨(hflight p b i hi).1, (hflight p b i hi).2, fun j hj => ?_⟩
        change (s.remember q _).mine p b = some j at hj
        rw [mine_remember, if_neg hp] at hj
        exact (hf.inFlight p b i hi).2.2 j hj

theorem run_fenced {events : List (FenceEvent P T)}
    (h : Run FenceStep (Processes.empty : Processes P T) events s) : Fenced s :=
  Run.invariant fenced_empty (fun _ _ _ hs hstep => hs.step hstep) h

/-! ## A process that lost its endpoint -/

/-- The process has published `i` under the binding, or committed it and not yet published. -/
def Owns (s : Processes P T) (p : P) (b : CallerBinding) (i : String) : Prop :=
  s.mine p b = some i ∨ s.mine p b = none ∧ s.inFlight p (ownershipKey b) = some i

theorem Owns.step {p : P} {b : CallerBinding} {i : String} (hf : Fenced s) (ho : Owns s p b i)
    (h : FenceStep s ev s') (hrestart : ev.isRestart p = false) : Owns s' p b i := by
  cases h with
  | unchanged hanswer =>
      unfold Owns
      rw [mine_remember_answer hanswer]
      exact ho
  | done hanswer =>
      have hmine := mine_remember_answer hanswer p b
      refine ho.imp (fun hi => hmine.trans hi) fun hi => ⟨hmine.trans hi.1, hi.2⟩
  | @enrolled q c token incarnation now ttl memory db hanswer hidle hfresh =>
      have hmine := mine_remember_answer hanswer p b
      refine ho.imp (fun hi => hmine.trans hi) fun hi => ⟨hmine.trans hi.1, ?_⟩
      change ((s.remember q memory).setInFlight q c (some incarnation)).inFlight p
        (ownershipKey b) = some i
      rw [inFlight_set, if_neg]
      · exact hi.2
      · rintro ⟨rfl, hkey⟩
        rw [← hkey, hi.2] at hidle
        cases hidle
  | @confirm q c incarnation hconfirm =>
      by_cases hkey : p = q ∧ ownershipKey b = ownershipKey c
      · obtain ⟨rfl, hkey⟩ := hkey
        left
        change (s.remember p _).mine p b = some i
        rw [mine_remember, if_pos rfl, mine_confirm, if_pos hkey]
        rw [← hkey] at hconfirm
        rcases ho with hi | ⟨-, hi⟩
        · rw [(hf.inFlight p b _ hconfirm).2.2 i hi]
        · exact hconfirm.symm.trans hi
      · have hmine : (s.remember q (confirmEnrollment (s.memory q) c incarnation)).mine p b =
            s.mine p b := by
          rw [mine_remember]
          split_ifs with hp
          · subst hp
            rw [mine_confirm, if_neg fun hc => hkey ⟨rfl, hc⟩]
            rfl
          · rfl
        refine ho.imp (fun hi => hmine.trans hi) fun hi => ⟨hmine.trans hi.1, ?_⟩
        rw [inFlight_set, if_neg hkey]
        exact hi.2
  | @restart q =>
      have hp : p ≠ q := by
        rintro rfl
        simp [FenceEvent.isRestart] at hrestart
      have hmine : (s.remember q {}).mine p b = s.mine p b := by
        rw [mine_remember, if_neg hp]
      refine ho.imp (fun hi => hmine.trans hi) fun hi => ⟨hmine.trans hi.1, ?_⟩
      change Function.update s.inFlight q (fun _ => none) p (ownershipKey b) = some i
      rw [Function.update_apply, if_neg hp]
      exact hi.2

/-- Another incarnation holds the row of the binding. -/
def TakenOver (s : Processes P T) (b : CallerBinding) (i : String) : Prop :=
  i ∈ s.issued ∧ ∃ j g, rowOf s.db (b.groupId, b.memberId) = some (j, g) ∧ j ≠ i

theorem TakenOver.step {b : CallerBinding} {i : String} (ht : TakenOver s b i)
    (h : FenceStep s ev s') : TakenOver s' b i := by
  obtain ⟨hissued, j, g, hrow, hne⟩ := ht
  obtain ⟨hstep, hsub⟩ := step_row h (b.groupId, b.memberId)
  rw [hrow] at hstep
  refine ⟨hsub hissued, ?_⟩
  generalize hnew : rowOf s'.db (b.groupId, b.memberId) = new at hstep
  cases hstep with
  | same => exact ⟨j, g, rfl, hne⟩
  | @takeover i' _ _ hfresh _ =>
      refine ⟨i', g + 1, rfl, ?_⟩
      rintro rfl
      exact hfresh hissued

theorem Owns.run {p : P} {b : CallerBinding} {i : String} {events : List (FenceEvent P T)}
    (hf : Fenced s) (ho : Owns s p b i) (h : Run FenceStep s events s')
    (hrestart : ∀ ev ∈ events, ev.isRestart p = false) : Fenced s' ∧ Owns s' p b i := by
  induction h with
  | nil => exact ⟨hf, ho⟩
  | @snoc events t t' ev _ hstep ih =>
      obtain ⟨hf', ho'⟩ := ih fun e he => hrestart e (List.mem_append_left _ he)
      exact ⟨hf'.step hstep, ho'.step hf' hstep (hrestart ev (by simp))⟩

theorem TakenOver.run {b : CallerBinding} {i : String} {events : List (FenceEvent P T)}
    (ht : TakenOver s b i) (h : Run FenceStep s events s') : TakenOver s' b i := by
  induction h with
  | nil => exact ht
  | snoc _ hstep ih => exact ih.step hstep

omit [Clock T] in
theorem exists_row {db : Db T} {b : CallerBinding} {i : String} {g : Nat}
    (h : rowOf db (b.groupId, b.memberId) = some (i, g)) :
    ∃ row, fetchRow db b = some row ∧ row.incarnation = i ∧ row.generation = g := by
  obtain ⟨row, hrow, heq⟩ := Option.map_eq_some_iff.mp h
  exact ⟨row, hrow, congrArg Prod.fst heq, congrArg Prod.snd heq⟩

omit [DecidableEq P] in
/-- What the process gets: a refusal of every call, but for a send's touch that finds nothing
published yet, which changes nothing. -/
theorem taken_over_refused {p : P} {b : CallerBinding} {i : String} (ho : Owns s p b i)
    (ht : TakenOver s b i) (now : T) (ttl : Nat) (memory : Memory)
    (result : Db T × Option String) :
    answer s.db (s.memory p) b now ttl .heartbeat ≠ (memory, .ok result) ∧
    (∀ renews, answer s.db (s.memory p) b now ttl (.receiver renews) ≠ (memory, .ok result)) ∧
    (s.inFlight p (ownershipKey b) = none → ∀ token,
      answer s.db (s.memory p) b now ttl (.enroll token) ≠ (memory, .ok result)) ∧
    (answer s.db (s.memory p) b now ttl (.touch true) = (memory, .ok result) →
      s.mine p b = none ∧ result = (s.db, none)) := by
  obtain ⟨-, j, g, hrow, hne⟩ := ht
  obtain ⟨row, hfetch, rfl, -⟩ := exists_row hrow
  have hheld : ∀ m r, held s.db (s.memory p) b ≠ (m, .ok r) := by
    rintro m ⟨row', mine⟩ hheld
    obtain ⟨-, hrow', hmine, heq⟩ := held_ok hheld
    rw [hfetch] at hrow'
    obtain rfl := Option.some.inj hrow'
    rcases ho with hi | ⟨hnone, -⟩
    · have hsame : some i = some mine := hi.symm.trans hmine
      exact hne (heq.trans (Option.some.inj hsame).symm)
    · have hsame : none = some mine := hnone.symm.trans hmine
      cases hsame
  have hdisplaced : s.mine p b = some i → isDisplaced (s.memory p) b (fetchRow s.db b) = true := by
    intro hi
    have hmine : (s.memory p).mine b = some i := hi
    rw [hfetch]
    simp [isDisplaced, hmine, hne]
  refine ⟨?_, ?_, ?_, ?_⟩
  · intro h
    simp only [answer, heartbeat] at h
    cases hh : held s.db (s.memory p) b with
    | mk m r =>
        cases r with
        | error e => simp [hh] at h
        | ok pair => exact hheld _ _ hh
  · intro renews h
    simp only [answer, receiverIncarnation] at h
    cases hh : held s.db (s.memory p) b with
    | mk m r =>
        cases r with
        | error e => simp [hh] at h
        | ok pair => exact hheld _ _ hh
  · intro hidle token h
    rcases ho with hi | ⟨-, hflight⟩
    · obtain ⟨m, hcurrent⟩ := @current_displaced _ s.db (s.memory p) b false (hdisplaced hi)
      simp [answer, enroll, hcurrent] at h
    · rw [hidle] at hflight
      cases hflight
  · intro h
    rcases ho with hi | ⟨hnone, -⟩
    · obtain ⟨m, hcurrent⟩ := @current_displaced _ s.db (s.memory p) b false (hdisplaced hi)
      simp [answer, touch, hcurrent] at h
    · refine ⟨hnone, ?_⟩
      simp only [answer, touch, Bool.not_true, Bool.false_eq_true, if_false] at h
      cases hc : current s.db (s.memory p) b false with
      | mk m r =>
          cases r with
          | error e => simp [hc] at h
          | ok pair =>
              obtain ⟨row', mine⟩ := pair
              obtain ⟨-, -, hmine, -⟩ := current_ok hc
              have hmine' : mine = none := hmine.trans hnone
              simp only [hc, hmine', Prod.mk.injEq, Except.ok.injEq] at h
              rw [← h.2]
              simp

theorem owning_ok {db : Db T} {memory memory' : Memory} {b : CallerBinding} {now : T} {ttl : Nat}
    {a : Attempt} {result : Db T × Option String}
    (ha : a = .heartbeat ∨ ∃ renews, a = .receiver renews)
    (h : answer db memory b now ttl a = (memory', .ok result)) :
    ∃ row, fetchRow db b = some row ∧ memory.mine b = some row.incarnation := by
  have hheld : ∃ m r, held db memory b = (m, .ok r) := by
    cases hh : held db memory b with
    | mk m r =>
        cases r with
        | ok pair => exact ⟨m, pair, rfl⟩
        | error e =>
            rcases ha with rfl | ⟨renews, rfl⟩
            · simp [answer, heartbeat, hh] at h
            · simp [answer, receiverIncarnation, hh] at h
  obtain ⟨m, ⟨row, mine⟩, hh⟩ := hheld
  obtain ⟨-, hrow, hmine, heq⟩ := held_ok hh
  exact ⟨row, hrow, by rw [heq, hmine]⟩

theorem step_generation (hf : Fenced s) (h : FenceStep s ev s') {k : String × String} {i : String}
    {g : Nat} (hrow : rowOf s.db k = some (i, g)) :
    ∃ j g', rowOf s'.db k = some (j, g') ∧ (j = i ∧ g' = g ∨ j ≠ i ∧ g' = g + 1) := by
  obtain ⟨hstep, -⟩ := step_row h k
  rw [hrow] at hstep
  generalize hnew : rowOf s'.db k = new at hstep
  cases hstep with
  | same => exact ⟨i, g, rfl, .inl ⟨rfl, rfl⟩⟩
  | @takeover j _ _ hfresh _ =>
      refine ⟨j, g + 1, rfl, .inr ⟨?_, rfl⟩⟩
      rintro rfl
      exact hfresh (hf.rows k _ g hrow)

theorem run_generation {events : List (FenceEvent P T)} (h : Run FenceStep s events s')
    (hf : Fenced s) {k : String × String} {i : String} {g : Nat}
    (hrow : rowOf s.db k = some (i, g)) :
    Fenced s' ∧ ∃ j g', rowOf s'.db k = some (j, g') ∧ g ≤ g' := by
  induction h with
  | nil => exact ⟨hf, i, g, hrow, le_rfl⟩
  | snoc _ hstep ih =>
      obtain ⟨hf', j, g', hrow', hle⟩ := ih
      obtain ⟨j', g'', hrow'', hcases⟩ := step_generation hf' hstep hrow'
      refine ⟨hf'.step hstep, j', g'', hrow'', ?_⟩
      rcases hcases with ⟨-, rfl⟩ | ⟨-, rfl⟩ <;> omega

/-- An owning operation succeeds only for the incarnation in the row. A process whose incarnation
lost the row is refused from then on, however the calls interleave; only a send's touch of a
process that has published nothing yet is answered, and changes nothing. Generations count the
takeovers. -/
theorem endpoint_fencing {events : List (FenceEvent P T)} {s : Processes P T}
    (hrun : Run FenceStep Processes.empty events s) :
    (∀ p b now ttl a memory result, (a = .heartbeat ∨ ∃ renews, a = .receiver renews) →
      answer s.db (s.memory p) b now ttl a = (memory, .ok result) →
        ∃ row, fetchRow s.db b = some row ∧ s.mine p b = some row.incarnation) ∧
    (∀ p b i mid s₁ row last s₂, Owns s p b i → Run FenceStep s mid s₁ →
      fetchRow s₁.db b = some row → row.incarnation ≠ i → Run FenceStep s₁ last s₂ →
      (∀ ev ∈ mid ++ last, ev.isRestart p = false) → ∀ now ttl memory result,
        answer s₂.db (s₂.memory p) b now ttl .heartbeat ≠ (memory, .ok result) ∧
        (∀ renews,
          answer s₂.db (s₂.memory p) b now ttl (.receiver renews) ≠ (memory, .ok result)) ∧
        (s₂.inFlight p (ownershipKey b) = none → ∀ token,
          answer s₂.db (s₂.memory p) b now ttl (.enroll token) ≠ (memory, .ok result)) ∧
        (answer s₂.db (s₂.memory p) b now ttl (.touch true) = (memory, .ok result) →
          s₂.mine p b = none ∧ result = (s₂.db, none))) ∧
    ∀ k i g, rowOf s.db k = some (i, g) →
      (∀ ev s', FenceStep s ev s' →
        ∃ j g', rowOf s'.db k = some (j, g') ∧ (j = i ∧ g' = g ∨ j ≠ i ∧ g' = g + 1)) ∧
      ∀ later s', Run FenceStep s later s' → ∃ j g', rowOf s'.db k = some (j, g') ∧ g ≤ g' := by
  have hf := run_fenced hrun
  refine ⟨fun p b now ttl a memory result ha h => owning_ok ha h, ?_, ?_⟩
  · intro p b i mid s₁ row last s₂ ho hmid hrow hne hlast hrestart now ttl memory result
    obtain ⟨hf₁, ho₁⟩ := ho.run hf hmid fun ev hev => hrestart ev (List.mem_append_left _ hev)
    have hrowOf : rowOf s₁.db (b.groupId, b.memberId) = some (row.incarnation, row.generation) := by
      unfold fetchRow at hrow
      rw [rowOf, hrow]
      rfl
    have hissued : i ∈ s₁.issued := by
      rcases ho₁ with hi | ⟨-, hi⟩
      · exact (hf₁.mine p b i hi).1
      · exact (hf₁.inFlight p b i hi).1
    have ht : TakenOver s₁ b i := ⟨hissued, _, _, hrowOf, hne⟩
    obtain ⟨-, ho₂⟩ := ho₁.run hf₁ hlast fun ev hev => hrestart ev (List.mem_append_right _ hev)
    exact taken_over_refused ho₂ (ht.run hlast) now ttl memory result
  · intro k i g hrow
    exact ⟨fun ev s' hstep => step_generation hf hstep hrow,
      fun later s' hlater => (run_generation hlater hf hrow).2⟩

end

/-! ## An enroll taken over before it is published -/

def memberBinding : CallerBinding where
  groupId := "g"
  formationId := "f"
  memberId := "m"
  sessionId := "pin"
  runPath := "run"
  manifestPath := "formation.yaml"

def enrollEvent (p : Bool) (token : String) : FenceEvent Bool Nat :=
  .call p memberBinding (.enroll token) 0 60

/-- The first process has committed its enroll. -/
def committedFirst : Processes Bool Nat :=
  { ((Processes.empty : Processes Bool Nat).remember false {}).setInFlight false memberBinding
      (some "a") with
    db := { endpoints := [(("g", "m"), enrolledRow memberBinding none none "a" 0 60)] }
    issued := ["a"] }

/-- The second has taken the endpoint over; the first has published nothing yet. -/
def takenOverSecond : Processes Bool Nat :=
  { (committedFirst.remember true {}).setInFlight true memberBinding (some "b") with
    db := { endpoints := [(("g", "m"), enrolledRow memberBinding
      (some (enrolledRow memberBinding none none "a" 0 60)) none "b" 0 60)] }
    issued := ["b", "a"] }

theorem run_takenOver : Run FenceStep Processes.empty
    [enrollEvent false "a", enrollEvent true "b"] takenOverSecond := by
  have hfirst : FenceStep Processes.empty (enrollEvent false "a") committedFirst :=
    .enrolled rfl rfl List.not_mem_nil
  have hsecond : FenceStep committedFirst (enrollEvent true "b") takenOverSecond :=
    .enrolled rfl rfl (by simp [committedFirst])
  exact (Run.single hfirst).append (Run.single hsecond)

/-- The first process held the row, lost it, and its touch succeeds. -/
theorem unpublished_touch_succeeds :
    ¬ ∀ (events : List (FenceEvent Bool Nat)) (s : Processes Bool Nat) (p : Bool)
      (b : CallerBinding) (i : String) (row : EndpointRow Nat),
      Run FenceStep Processes.empty events s → Owns s p b i → fetchRow s.db b = some row →
      row.incarnation ≠ i → ∀ now ttl memory result,
        answer s.db (s.memory p) b now ttl (.touch true) ≠ (memory, .ok result) := by
  intro hall
  have hanswer : answer takenOverSecond.db (takenOverSecond.memory false) memberBinding 0 60
      (.touch true) = ({}, .ok (takenOverSecond.db, none)) := rfl
  exact hall _ takenOverSecond false memberBinding "a" _ run_takenOver (.inr ⟨rfl, rfl⟩) rfl
    (by decide) 0 60 _ _ hanswer

/-- After the takeover the first process can no longer heartbeat. -/
theorem endpoint_fencing_sample :
    answer takenOverSecond.db (takenOverSecond.memory false) memberBinding 0 60 .heartbeat ≠
      (takenOverSecond.memory false, .ok (takenOverSecond.db, none)) := by
  obtain ⟨-, hlost, -⟩ := endpoint_fencing run_takenOver
  exact (hlost false memberBinding "a" [] takenOverSecond _ [] takenOverSecond
    (.inr ⟨rfl, rfl⟩) Run.nil rfl (by decide) Run.nil (by simp) 0 60 _ _).1

section

variable {P T : Type} [Clock T] [DecidableEq P] {s s' : Processes P T}

/-- Over any later calls the generation of a row tells its owners apart: it never falls, and it is
the same only where the incarnation is. An incarnation that lost the row never has it again. -/
theorem generation_names_incarnation {events later : List (FenceEvent P T)}
    (hrun : Run FenceStep Processes.empty events s) (hlater : Run FenceStep s later s')
    {k : String × String} {i j : String} {g g' : Nat} (hrow : rowOf s.db k = some (i, g))
    (hrow' : rowOf s'.db k = some (j, g')) : g ≤ g' ∧ (j = i ↔ g' = g) := by
  have hissued : i ∈ s.issued := (run_fenced hrun).rows k i g hrow
  obtain ⟨-, j₁, g₁, hlast, hcases⟩ : s.issued ⊆ s'.issued ∧ ∃ j g', rowOf s'.db k = some (j, g') ∧
      (j = i ∧ g' = g ∨ j ≠ i ∧ g < g') := by
    refine hlater.invariant (I := fun s' => s.issued ⊆ s'.issued ∧ ∃ j g',
      rowOf s'.db k = some (j, g') ∧ (j = i ∧ g' = g ∨ j ≠ i ∧ g < g'))
      ⟨List.Subset.refl _, i, g, hrow, .inl ⟨rfl, rfl⟩⟩ ?_
    rintro mid ev next ⟨hsub, j, g', hmid, hcases⟩ hstep
    obtain ⟨hmoved, hgrown⟩ := step_row hstep k
    refine ⟨fun _ h => hgrown (hsub h), ?_⟩
    rw [hmid] at hmoved
    generalize rowOf next.db k = new at hmoved
    cases hmoved with
    | same => exact ⟨j, g', rfl, hcases⟩
    | @takeover taker _ _ hfresh _ =>
        refine ⟨taker, g' + 1, rfl, .inr ⟨?_, by omega⟩⟩
        rintro rfl
        exact hfresh (hsub hissued)
  obtain ⟨rfl, rfl⟩ : j₁ = j ∧ g₁ = g' := by
    rw [hlast] at hrow'
    simpa using hrow'
  rcases hcases with ⟨rfl, rfl⟩ | ⟨hne, hlt⟩
  · simp
  · exact ⟨hlt.le, iff_of_false hne hlt.ne'⟩

end

theorem generation_names_incarnation_sample : ∃ g g',
    rowOf committedFirst.db ("g", "m") = some ("a", g) ∧
      rowOf takenOverSecond.db ("g", "m") = some ("b", g') ∧ g ≤ g' ∧ ("b" = "a" ↔ g' = g) := by
  have hfirst : FenceStep Processes.empty (enrollEvent false "a") committedFirst :=
    .enrolled rfl rfl List.not_mem_nil
  have hsecond : FenceStep committedFirst (enrollEvent true "b") takenOverSecond :=
    .enrolled rfl rfl (by simp [committedFirst])
  exact ⟨1, 2, rfl, rfl,
    generation_names_incarnation (k := ("g", "m")) (Run.single hfirst) (Run.single hsecond) rfl rfl⟩

end TrwMcp.Comms
