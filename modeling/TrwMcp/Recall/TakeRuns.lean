import TrwMcp.Recall.Take
import Mathlib.Data.List.Infix
import Mathlib.Data.List.Nodup

/-!
# A query and a fetch by ids show the same rows

A round of a search looks its candidates up in the order of their rank and keeps what it looked up,
so after every round the cache holds a front of the namespace's ids and the rows taken are those a
plain filter takes from that front. The fetch by ids settles an id where the search showed it.
-/

namespace TrwMcp.Recall

open Lib

/-- A store at one moment: its rows by namespace and id, and every namespace's candidates in the
order of their rank. -/
structure Snapshot where
  row : String → String → Option MemoryEntry
  ranking : String → List MemoryEntry
  ranked : ∀ namespace_, ∀ hit ∈ ranking namespace_, row namespace_ hit.id = some hit

/-- The first candidates of a namespace. -/
def Snapshot.page (s : Snapshot) (namespace_ : String) (k : Nat) : List MemoryEntry :=
  (s.ranking namespace_).take k

/-! ## Ids in the order of their first occurrence -/

def addKey (keys : List String) (id : String) : List String :=
  if keys.contains id then keys else keys ++ [id]

theorem foldl_addKey (acc xs : List String) (hacc : acc.Nodup) :
    (xs.foldl addKey acc).Nodup ∧ (∀ id, id ∈ xs.foldl addKey acc ↔ id ∈ acc ∨ id ∈ xs) ∧
      acc <+: xs.foldl addKey acc := by
  induction xs generalizing acc with
  | nil => exact ⟨hacc, by simp, List.prefix_refl _⟩
  | cons x xs ih =>
      rw [List.foldl_cons, addKey]
      split
      · next hx =>
        obtain ⟨hnodup, hmem, hfront⟩ := ih acc hacc
        have hx : x ∈ acc := by simpa using hx
        refine ⟨hnodup, fun id => ?_, hfront⟩
        rw [hmem, List.mem_cons]
        constructor
        · rintro (h | h)
          · exact .inl h
          · exact .inr (.inr h)
        · rintro (h | rfl | h)
          · exact .inl h
          · exact .inl hx
          · exact .inr h
      · next hx =>
        have hx : x ∉ acc := by simpa using hx
        obtain ⟨hnodup, hmem, hfront⟩ := ih (acc ++ [x]) (by
          rw [← List.concat_eq_append]
          exact hacc.concat hx)
        refine ⟨hnodup, fun id => ?_, (List.prefix_append _ _).trans hfront⟩
        rw [hmem, List.mem_append, List.mem_singleton, List.mem_cons, or_assoc]

theorem fromkeys_nodup (ids : List String) : (fromkeys ids).Nodup :=
  (foldl_addKey [] ids List.nodup_nil).1

theorem mem_fromkeys {ids : List String} {id : String} : id ∈ fromkeys ids ↔ id ∈ ids := by
  rw [fromkeys]
  exact ((foldl_addKey [] ids List.nodup_nil).2.1 id).trans (by simp)

theorem fromkeys_append (xs ys : List String) : fromkeys xs <+: fromkeys (xs ++ ys) := by
  rw [fromkeys, fromkeys, List.foldl_append]
  exact (foldl_addKey _ ys (fromkeys_nodup xs)).2.2

theorem fromkeys_concat (xs : List String) (x : String) :
    fromkeys (xs ++ [x]) = if x ∈ xs then fromkeys xs else fromkeys xs ++ [x] := by
  have h : fromkeys (xs ++ [x]) = addKey (fromkeys xs) x := by
    rw [fromkeys, List.foldl_append]
    rfl
  rw [h, addKey]
  simp only [List.contains_iff_mem, mem_fromkeys]

theorem fromkeys_eq_self {ids : List String} (h : ids.Nodup) : fromkeys ids = ids := by
  induction ids using List.reverseRecOn with
  | nil => rfl
  | append_singleton xs x ih =>
      rw [← List.concat_eq_append, List.nodup_concat] at h
      rw [fromkeys_concat, if_neg h.1, ih h.2]

/-! ## Grouped hits -/

section

variable {ν : Type}

theorem lookup_keyed (keys : List String) (f : String → ν) (id : String) :
    Dict.lookup (keys.map fun k => (k, f k)) id = if id ∈ keys then some (f id) else none := by
  induction keys with
  | nil => rfl
  | cons k keys ih =>
      rw [List.map_cons, Dict.lookup_cons, ih]
      by_cases hk : k = id
      · simp [hk]
      · simp [hk, Ne.symm hk]

theorem set_keyed {keys : List String} (hn : keys.Nodup) (f : String → ν) {id : String}
    (hid : id ∈ keys) (v : ν) :
    Dict.set (keys.map fun k => (k, f k)) id v =
      keys.map fun k => (k, if k = id then v else f k) := by
  induction keys with
  | nil => cases hid
  | cons k keys ih =>
      obtain ⟨hk, hrest⟩ := List.nodup_cons.mp hn
      rw [List.map_cons, List.map_cons, Dict.set]
      by_cases heq : k = id
      · subst heq
        rw [if_pos rfl, if_pos rfl]
        congr 1
        refine List.map_congr_left fun l hl => ?_
        rw [if_neg fun h : l = k => hk (h ▸ hl)]
      · rw [if_neg heq, if_neg heq, ih hrest ((List.mem_cons.mp hid).resolve_left (Ne.symm heq))]

end

theorem groupById_eq (hits : List MemoryEntry) :
    groupById hits = (fromkeys (hits.map (·.id))).map fun id =>
      (id, hits.filter (·.id = id)) := by
  induction hits using List.reverseRecOn with
  | nil => rfl
  | append_singleton hits hit ih =>
      have hstep : groupById (hits ++ [hit]) = Dict.set (groupById hits) hit.id
          ((Dict.lookup (groupById hits) hit.id).getD [] ++ [hit]) := by
        rw [groupById, List.foldl_append]
        rfl
      rw [hstep, ih, lookup_keyed, List.map_append, List.map_singleton, fromkeys_concat]
      by_cases hmem : hit.id ∈ hits.map (·.id)
      · rw [if_pos (mem_fromkeys.mpr hmem), if_pos hmem,
          set_keyed (fromkeys_nodup _) _ (mem_fromkeys.mpr hmem)]
        refine List.map_congr_left fun id _ => ?_
        by_cases hid : id = hit.id
        · subst hid
          simp [List.filter_append]
        · simp [List.filter_append, hid, Ne.symm hid]
      · rw [if_neg (mt mem_fromkeys.mp hmem), if_neg hmem, Dict.set_eq_append
          (by simpa [Function.comp_def] using mt mem_fromkeys.mp hmem), List.map_append]
        congr 1
        · refine List.map_congr_left fun id hid => ?_
          have hne : hit.id ≠ id := fun h => hmem (h ▸ mem_fromkeys.mp hid)
          simp [List.filter_append, hne]
        · have hnone : hits.filter (·.id = hit.id) = [] :=
            List.filter_eq_nil_iff.mpr fun h hh heq =>
              hmem (List.mem_map.mpr ⟨h, hh, of_decide_eq_true heq⟩)
          simp [List.filter_append, hnone]

/-! ## The row of an id -/

theorem representative_copies {admission : RecallAdmission} {rows : List MemoryEntry}
    {r : MemoryEntry} (hne : rows ≠ []) (hcopies : ∀ e ∈ rows, e = r) :
    admission.representative rows = (some r).filter admission.admits := by
  have hkeep : ∀ es : List MemoryEntry, (∀ e ∈ es, e = r) → es ≠ [] → newest es = some r := by
    intro es hes hne
    cases es with
    | nil => exact absurd rfl hne
    | cons e es =>
        obtain rfl := hes e (List.mem_cons_self ..)
        rw [newest]
        congr 1
        have hrest : ∀ x ∈ es, x = e := fun x hx => hes x (List.mem_cons_of_mem _ hx)
        clear hes hne hcopies
        induction es with
        | nil => rfl
        | cons x es ih =>
            obtain rfl := hrest x (List.mem_cons_self ..)
            rw [List.foldl_cons, ite_self]
            exact ih fun y hy => hrest y (List.mem_cons_of_mem _ hy)
  rw [RecallAdmission.representative]
  by_cases hr : admission.admits r = true
  · have hall : rows.filter admission.admits = rows :=
      List.filter_eq_self.mpr fun e he => hcopies e he ▸ hr
    rw [hall, hkeep rows hcopies hne]
    exact (if_pos hr).symm
  · have hnone : rows.filter admission.admits = [] :=
      List.filter_eq_nil_iff.mpr fun e he => hcopies e he ▸ hr
    rw [hnone]
    exact (if_neg hr).symm

theorem representative_rowsIn {admission : RecallAdmission}
    {row : String → String → Option MemoryEntry} (namespace_ id : String) :
    admission.representative (rowsIn row namespace_ id) =
      (row namespace_ id).filter admission.admits := by
  rw [rowsIn]
  cases row namespace_ id with
  | none => rfl
  | some r => exact representative_copies (by simp) (by simp)

section

variable (s : Snapshot) (spec : RecallSpec)

/-- The row a namespace shows under an id: its own, where it is admitted, passes the filters and no
earlier namespace holds an admitted one. -/
def Snapshot.shown (earlier : List String) (namespace_ id : String) : Option MemoryEntry :=
  if claimedBy spec s.row earlier id then none
  else (s.row namespace_ id).filter fun r => spec.admission.admits r &&
    applyEntryFilters r spec.tags spec.admission.memStatus spec.minImpact

/-- What the plain filter takes of a namespace, in the order of the ranks. -/
def Snapshot.wanted (earlier : List String) (namespace_ : String) : List MemoryEntry :=
  (fromkeys ((s.ranking namespace_).map (·.id))).filterMap (s.shown spec earlier namespace_)

/-- The ids of the first candidates that were not shown before. -/
def Snapshot.front (seen : List String) (namespace_ : String) (k : Nat) : List String :=
  (fromkeys ((s.page namespace_ k).map (·.id))).filter fun id => !seen.contains id

/-- The rows a namespace is to contribute stand within the scan limit, and at most 64 ids up to the
last of them are not shown. -/
def Snapshot.InReach (cap : Nat) (earlier seen : List String) (namespace_ : String) : Prop :=
  ∃ k ≤ max spec.topK defaultListLimit,
    ((s.front seen namespace_ k).filterMap (s.shown spec earlier namespace_)).take cap =
        (s.wanted spec earlier namespace_).take cap ∧
      (s.front seen namespace_ k).length ≤
        ((s.wanted spec earlier namespace_).take cap).length + representativeLookupSlack

/-- `take_hits` as the search calls it. -/
def takeArgs (userRecallCap : Nat) (earlier seen : List String) (namespace_ : String) : TakeArgs where
  spec := spec
  cap := capOf spec userRecallCap namespace_
  seen := seen
  claimed := if earlier.isEmpty then none else some (claimedBy spec s.row earlier)

end

/-! ## One round -/

section

variable {s : Snapshot} {spec : RecallSpec} {userRecallCap : Nat} {earlier seen : List String}
  {namespace_ : String}

theorem front_mono (seen : List String) (namespace_ : String) {k l : Nat} (h : k ≤ l) :
    s.front seen namespace_ k <+: s.front seen namespace_ l := by
  refine List.IsPrefix.filter _ ?_
  obtain ⟨m, rfl⟩ := Nat.exists_eq_add_of_le h
  rw [Snapshot.page, Snapshot.page, List.take_add, List.map_append]
  exact fromkeys_append _ _

theorem front_nodup (seen : List String) (namespace_ : String) (k : Nat) :
    (s.front seen namespace_ k).Nodup := (fromkeys_nodup _).filter _

theorem takeArgs_spec :
    (takeArgs s spec userRecallCap earlier seen namespace_).spec = spec := rfl

theorem takeArgs_seen :
    (takeArgs s spec userRecallCap earlier seen namespace_).seen = seen := rfl

theorem takeArgs_rowsFor :
    (takeArgs s spec userRecallCap earlier seen namespace_).rowsFor = none := rfl

theorem takeArgs_cap {cap : Nat} (hcap : capOf spec userRecallCap namespace_ = cap) :
    (takeArgs s spec userRecallCap earlier seen namespace_).cap = cap := hcap

theorem takeArgs_budget {cap : Nat} (hcap : capOf spec userRecallCap namespace_ = cap) :
    (takeArgs s spec userRecallCap earlier seen namespace_).budget =
      cap + representativeLookupSlack := by
  rw [TakeArgs.budget, takeArgs_cap hcap]

/-- What the lookup of an id gives. -/
def Snapshot.found (s : Snapshot) (spec : RecallSpec) (earlier : List String)
    (namespace_ id : String) : Option MemoryEntry :=
  if claimedBy spec s.row earlier id then none
  else (s.row namespace_ id).filter spec.admission.admits

variable (spec userRecallCap earlier seen) in
theorem lookup_eq {k : Nat} {id : String} (hid : id ∈ (s.page namespace_ k).map (·.id)) :
    (if (takeArgs s spec userRecallCap earlier seen namespace_).claimed.any (· id) then none
      else spec.admission.representative ((s.page namespace_ k).filter (·.id = id))) =
        s.found spec earlier namespace_ id := by
  have hclaimed : (takeArgs s spec userRecallCap earlier seen namespace_).claimed.any (· id) =
      claimedBy spec s.row earlier id := by
    cases earlier with
    | nil => rfl
    | cons e earlier => rfl
  obtain ⟨hit, hhit, rfl⟩ := List.mem_map.mp hid
  have hrow := s.ranked namespace_ hit (List.mem_of_mem_take hhit)
  rw [hclaimed, Snapshot.found, hrow]
  split
  · rfl
  · refine representative_copies (List.ne_nil_of_mem (List.mem_filter.mpr ⟨hhit, by simp⟩))
      fun e he => ?_
    obtain ⟨he, hsame⟩ := List.mem_filter.mp he
    have hother := s.ranked namespace_ e (List.mem_of_mem_take he)
    rw [of_decide_eq_true hsame, hrow] at hother
    exact (Option.some.inj hother).symm

theorem take_found {k : Nat} {id : String} (hid : id ∈ (s.page namespace_ k).map (·.id))
    (r : Round) :
    r.take (takeArgs s spec userRecallCap earlier seen namespace_) (s.page namespace_ k)
        (s.found spec earlier namespace_ id) =
      { r with taken := r.taken ++ (s.shown spec earlier namespace_ id).toList } := by
  obtain ⟨hit, hhit, rfl⟩ := List.mem_map.mp hid
  have hrow := s.ranked namespace_ hit (List.mem_of_mem_take hhit)
  have hmatched : ((s.page namespace_ k).map fun hit => (hit.id, hit.namespace_)).contains
      (hit.id, hit.namespace_) = true := by
    rw [List.contains_iff_mem]
    exact List.mem_map.mpr ⟨hit, hhit, rfl⟩
  rw [Snapshot.found, Snapshot.shown, hrow]
  by_cases hclaimed : claimedBy spec s.row earlier hit.id = true
  · simp [hclaimed, Round.take]
  · by_cases hadmits : spec.admission.admits hit = true
    · simp only [hclaimed, Bool.false_eq_true, if_false, Option.filter, hadmits, if_true,
        Round.take, shows, takeArgs, hmatched, Bool.or_true, Bool.and_true, Bool.true_and]
      split <;> simp
    · simp [hclaimed, hadmits, Option.filter, Round.take]

/-- The cache after the lookups of a front of the ids. -/
def Snapshot.cache (s : Snapshot) (spec : RecallSpec) (earlier seen : List String)
    (namespace_ : String) (k m : Nat) : Dict String (Option MemoryEntry) :=
  ((s.front seen namespace_ k).take m).map fun id => (id, s.found spec earlier namespace_ id)

/-- What the inner loop comes to from the ids at a position on, with a front looked up: a further
position, and why it stopped there. -/
theorem takeRound_spec {k cap : Nat} (hcap : capOf spec userRecallCap namespace_ = cap)
    (ids : List String) {j m : Nat}
    (hids : ids.filter (fun id => !seen.contains id) = (s.front seen namespace_ k).drop j)
    (hpage : ∀ id ∈ ids, id ∈ (s.page namespace_ k).map (·.id))
    (hj : j ≤ m) (hm : m ≤ (s.front seen namespace_ k).length)
    (hbudget : m ≤ cap + representativeLookupSlack)
    {r : Round} (htaken : r.taken = ((s.front seen namespace_ k).take j).filterMap
      (s.shown spec earlier namespace_)) (hfew : r.taken.length ≤ cap)
    (hcache : r.resolved = s.cache spec earlier seen namespace_ k m) :
    ∃ j' m', j' ≤ m' ∧ m' ≤ (s.front seen namespace_ k).length ∧
      m' ≤ cap + representativeLookupSlack ∧
      takeRound (takeArgs s spec userRecallCap earlier seen namespace_) (s.page namespace_ k)
        (ids.map fun id => (id, (s.page namespace_ k).filter (·.id = id))) r =
          ⟨((s.front seen namespace_ k).take j').filterMap (s.shown spec earlier namespace_),
            s.cache spec earlier seen namespace_ k m'⟩ ∧
      (((s.front seen namespace_ k).take j').filterMap
        (s.shown spec earlier namespace_)).length ≤ cap ∧
      (j' = (s.front seen namespace_ k).length ∨
        cap ≤ (((s.front seen namespace_ k).take j').filterMap
          (s.shown spec earlier namespace_)).length ∨
        j' = cap + representativeLookupSlack) := by
  have hstop : (⟨((s.front seen namespace_ k).take j).filterMap (s.shown spec earlier namespace_),
      s.cache spec earlier seen namespace_ k m⟩ : Round) = r := by
    rw [← htaken, ← hcache]
  induction ids generalizing j m r with
  | nil =>
      refine ⟨j, m, hj, hm, hbudget, hstop.symm, htaken ▸ hfew, .inl ?_⟩
      have hnil : (s.front seen namespace_ k).drop j = [] := hids.symm
      have := List.drop_eq_nil_iff.mp hnil
      omega
  | cons id ids ih =>
      have hrest : ∀ x ∈ ids, x ∈ (s.page namespace_ k).map (·.id) := fun x hx =>
        hpage x (List.mem_cons_of_mem _ hx)
      rw [List.map_cons, takeRound, takeArgs_cap hcap]
      by_cases hfull : cap ≤ r.taken.length
      · rw [if_pos hfull]
        exact ⟨j, m, hj, hm, hbudget, hstop.symm, htaken ▸ hfew, .inr (.inl (htaken ▸ hfull))⟩
      rw [if_neg hfull, takeArgs_seen]
      by_cases hseen : seen.contains id = true
      · rw [if_pos hseen]
        rw [List.filter_cons_of_neg (by simpa using hseen)] at hids
        exact ih hids hrest hj hm hbudget htaken hfew hcache hstop
      rw [if_neg hseen]
      rw [List.filter_cons_of_pos (by simpa using hseen)] at hids
      -- the id at the position, and the ids behind it
      have hlt : j < (s.front seen namespace_ k).length := by
        have := congrArg List.length hids
        simp only [List.length_cons, List.length_drop] at this
        omega
      rw [List.drop_eq_getElem_cons hlt, List.cons.injEq] at hids
      obtain ⟨hid, hnext⟩ := hids
      have htakeNext : (s.front seen namespace_ k).take (j + 1) =
          (s.front seen namespace_ k).take j ++ [id] := by
        rw [List.take_succ_eq_append_getElem hlt, hid]
      have hmore : r.taken ++ (s.shown spec earlier namespace_ id).toList =
          ((s.front seen namespace_ k).take (j + 1)).filterMap (s.shown spec earlier namespace_) := by
        rw [htakeNext, List.filterMap_append, htaken]
        congr 1
      have hfew' : (r.taken ++ (s.shown spec earlier namespace_ id).toList).length ≤ cap := by
        have : (s.shown spec earlier namespace_ id).toList.length ≤ 1 := by
          cases s.shown spec earlier namespace_ id <;> simp
        rw [List.length_append]
        omega
      have hinpage := hpage id (List.mem_cons_self ..)
      have hcached : id ∈ (s.front seen namespace_ k).take m ↔ j < m := by
        rw [hid, List.mem_take_iff_getElem]
        constructor
        · rintro ⟨i, hi, heq⟩
          have := (front_nodup seen namespace_ k).getElem_inj_iff.mp heq
          omega
        · intro hjm
          exact ⟨j, by omega, rfl⟩
      rw [hcache, Snapshot.cache, lookup_keyed]
      by_cases hjm : j < m
      · rw [if_pos (hcached.mpr hjm)]
        dsimp only
        rw [take_found hinpage]
        exact ih hnext hrest hjm hm hbudget hmore hfew' hcache (by rw [← hmore, ← hcache])
      · obtain rfl : j = m := by omega
        rw [if_neg (mt hcached.mp hjm)]
        dsimp only
        have hsize : (((s.front seen namespace_ k).take j).map fun id =>
            (id, s.found spec earlier namespace_ id)).length = j := by
          rw [List.length_map, List.length_take]
          omega
        rw [hsize, takeArgs_budget hcap]
        by_cases hspent : cap + representativeLookupSlack ≤ j
        · rw [if_pos hspent]
          exact ⟨j, j, le_rfl, hm, hbudget, hstop.symm, htaken ▸ hfew, .inr (.inr (by omega))⟩
        · rw [if_neg hspent]
          have hset : Dict.set (((s.front seen namespace_ k).take j).map fun id =>
              (id, s.found spec earlier namespace_ id)) id (s.found spec earlier namespace_ id) =
                s.cache spec earlier seen namespace_ k (j + 1) := by
            rw [Dict.set_eq_append (by
              simpa [Function.comp_def] using mt hcached.mp hjm), Snapshot.cache, htakeNext,
              List.map_append]
            rfl
          have hlookup := lookup_eq spec userRecallCap earlier seen hinpage
          rw [takeArgs_rowsFor]
          dsimp only
          rw [takeArgs_spec, hlookup, hset, take_found hinpage]
          exact ih hnext hrest le_rfl hlt (by omega) hmore hfew' rfl (by rw [← hmore])

/-! ## All rounds -/

theorem front_all {k : Nat} (h : (s.page namespace_ k).length < k) (l : Nat) (hl : k ≤ l) :
    s.front seen namespace_ k = s.front seen namespace_ l := by
  have hall : (s.ranking namespace_).length ≤ k := by
    rw [Snapshot.page, List.length_take] at h
    omega
  rw [Snapshot.front, Snapshot.front, Snapshot.page, Snapshot.page, List.take_of_length_le hall,
    List.take_of_length_le (hall.trans hl)]

theorem cache_mono {k l m : Nat} (hkl : k ≤ l) (hm : m ≤ (s.front seen namespace_ k).length) :
    s.cache spec earlier seen namespace_ k m = s.cache spec earlier seen namespace_ l m := by
  obtain ⟨back, hback⟩ := front_mono (s := s) seen namespace_ hkl
  rw [Snapshot.cache, Snapshot.cache, ← hback, List.take_append_of_le_length hm]

variable (s earlier seen) in
theorem takeRounds_spec {cap : Nat} (hcap : capOf spec userRecallCap namespace_ = cap)
    (hsingle : spec.singlePage = false) {rounds topK m : Nat} (hrounds : 0 < rounds)
    (htop : 1 ≤ topK) (henough : defaultListLimit < rounds + topK)
    (hm : m ≤ (s.front seen namespace_ topK).length) (hbudget : m ≤ cap + representativeLookupSlack) :
    ∃ k j, topK ≤ k ∧ j ≤ (s.front seen namespace_ k).length ∧
      takeRounds (takeArgs s spec userRecallCap earlier seen namespace_) (s.page namespace_) rounds
        topK (s.cache spec earlier seen namespace_ topK m) =
          some (((s.front seen namespace_ k).take j).filterMap (s.shown spec earlier namespace_)) ∧
      (((s.front seen namespace_ k).take j).filterMap
        (s.shown spec earlier namespace_)).length ≤ cap ∧
      (cap ≤ (((s.front seen namespace_ k).take j).filterMap
          (s.shown spec earlier namespace_)).length ∨
        cap + representativeLookupSlack ≤ j ∨
        (s.front seen namespace_ k).length ≤ j ∧
          ((s.page namespace_ k).length < k ∨ defaultListLimit ≤ k)) := by
  induction rounds generalizing topK m with
  | zero => omega
  | succ rounds ih =>
      obtain ⟨j, m', hjm, hm', hbudget', hround, hfew, hwhy⟩ :=
        takeRound_spec (k := topK) hcap
          (fromkeys ((s.page namespace_ topK).map (·.id))) (j := 0) (m := m)
          (r := ⟨[], s.cache spec earlier seen namespace_ topK m⟩) rfl
          (fun id hid => mem_fromkeys.mp hid) (Nat.zero_le _) hm hbudget rfl (Nat.zero_le _) rfl
      rw [takeRounds]
      simp only [groupById_eq, hround]
      have hsize : (s.cache spec earlier seen namespace_ topK m').length = m' := by
        rw [Snapshot.cache, List.length_map, List.length_take]
        omega
      rw [hsize, takeArgs_cap hcap, takeArgs_budget hcap, takeArgs_spec, hsingle]
      split
      · next hstop =>
        refine ⟨topK, j, le_rfl, hjm.trans hm', rfl, hfew, ?_⟩
        rcases hwhy with hj | hj | hj
        · rcases hstop with h | h | h | h | h
          · exact .inl h
          · exact .inr (.inl (by omega))
          · exact .inr (.inr ⟨hj.ge, .inl h⟩)
          · exact .inr (.inr ⟨hj.ge, .inr h⟩)
          · cases h
        · exact .inl hj
        · exact .inr (.inl hj.ge)
      · next hgo =>
        simp only [not_or] at hgo
        have hlimit : topK < defaultListLimit := by omega
        have hnext : topK < min (topK * 4) defaultListLimit := by
          rw [lt_min_iff]
          omega
        have hbound : min (topK * 4) defaultListLimit ≤ defaultListLimit := min_le_right ..
        obtain ⟨k, l, hk, hl, hrun, hrest⟩ := @ih (min (topK * 4) defaultListLimit) m'
          (by omega) (by omega) (by omega)
          (hm'.trans (front_mono seen namespace_ hnext.le).length_le) hbudget'
        rw [cache_mono hnext.le hm']
        exact ⟨k, l, by omega, hl, hrun, hrest⟩

/-! ## What a namespace contributes -/

/-- The ids shown before are claimed by an earlier namespace, so the plain filter takes none of
them. -/
def Claims (s : Snapshot) (spec : RecallSpec) (earlier seen : List String) : Prop :=
  ∀ id ∈ seen, claimedBy spec s.row earlier id = true

theorem filterMap_front (hseen : Claims s spec earlier seen) {k : Nat}
    (hk : (s.ranking namespace_).length ≤ k) :
    (s.front seen namespace_ k).filterMap (s.shown spec earlier namespace_) =
      s.wanted spec earlier namespace_ := by
  rw [Snapshot.front, Snapshot.page, List.take_of_length_le hk, Snapshot.wanted,
    List.filterMap_filter]
  refine List.filterMap_congr fun id _ => ?_
  split
  · rfl
  · next hid =>
    have hmem : id ∈ seen := by simpa using hid
    rw [Snapshot.shown, if_pos (hseen id hmem)]

variable (namespace_) in
theorem filterMap_front_le (hseen : Claims s spec earlier seen) (k j : Nat) :
    ((s.front seen namespace_ k).take j).filterMap (s.shown spec earlier namespace_) <+:
      s.wanted spec earlier namespace_ := by
  rw [← filterMap_front hseen (le_max_left _ k)]
  exact ((List.take_prefix _ _).trans (front_mono seen namespace_ (le_max_right ..))).filterMap _

variable (s spec userRecallCap earlier seen namespace_) in
/-- A namespace contributes a front of what the plain filter takes, and the first ones up to its
cap where these are in reach. -/
theorem takeHits_spec (hseen : Claims s spec earlier seen) (hsingle : spec.singlePage = false)
    (htop : 1 ≤ spec.topK) {rounds : Nat} (hrounds : defaultListLimit ≤ rounds) :
    ∃ taken, takeHits (takeArgs s spec userRecallCap earlier seen namespace_) rounds
        (s.page namespace_) = some taken ∧
      taken <+: s.wanted spec earlier namespace_ ∧
      taken.length ≤ capOf spec userRecallCap namespace_ ∧
      (s.InReach spec (capOf spec userRecallCap namespace_) earlier seen namespace_ →
        taken = (s.wanted spec earlier namespace_).take (capOf spec userRecallCap namespace_)) := by
  obtain ⟨cap, hcap⟩ : ∃ cap, capOf spec userRecallCap namespace_ = cap := ⟨_, rfl⟩
  have hlimit : 0 < defaultListLimit := by decide
  obtain ⟨k, j, hk, hj, hrun, hfew, hwhy⟩ := takeRounds_spec s earlier seen (m := 0) hcap hsingle
    (hlimit.trans_le hrounds) htop (by omega) (Nat.zero_le _) (Nat.zero_le _)
  have hfront := filterMap_front_le namespace_ hseen k j
  rw [hcap]
  refine ⟨_, hrun, hfront, hfew, ?_⟩
  rintro ⟨l, hl, hall, hslack⟩
  have hwithin : ((s.front seen namespace_ k).take j).filterMap (s.shown spec earlier namespace_) <+:
      (s.wanted spec earlier namespace_).take cap := List.prefix_take_iff.mpr ⟨hfront, hfew⟩
  refine hwithin.eq_of_length_le ?_
  rcases hwhy with hfull | hfar
  · exact (List.length_take_le _ _).trans hfull
  · -- everything in reach was scanned
    have hcover : s.front seen namespace_ l <+: (s.front seen namespace_ k).take j := by
      have hlength : (s.front seen namespace_ l).length ≤ cap + representativeLookupSlack :=
        hslack.trans (Nat.add_le_add_right (List.length_take_le _ _) _)
      rcases Nat.lt_or_ge k l with hkl | hlk
      · have hgrow := front_mono (s := s) seen namespace_ hkl.le
        have hsame : s.front seen namespace_ k = s.front seen namespace_ l := by
          rcases hfar with hspent | ⟨-, hshort | hdeep⟩
          · exact hgrow.eq_of_length_le (by omega)
          · exact front_all hshort l hkl.le
          · exact absurd hl (by omega)
        rw [← hsame, List.take_of_length_le]
        rcases hfar with hspent | ⟨hwhole, -⟩
        · rw [hsame]
          omega
        · exact hwhole
      · rw [List.prefix_take_iff]
        refine ⟨front_mono seen namespace_ hlk, ?_⟩
        rcases hfar with hspent | ⟨hwhole, -⟩
        · omega
        · exact (front_mono seen namespace_ hlk).length_le.trans hwhole
    rw [← hall]
    exact (List.length_take_le' _ _).trans (hcover.filterMap _).length_le

/-! ## Rows and their ids -/

theorem shown_ok {id : String} {r : MemoryEntry}
    (h : s.shown spec earlier namespace_ id = some r) :
    claimedBy spec s.row earlier id = false ∧ s.row namespace_ id = some r ∧
      spec.admission.admits r = true := by
  unfold Snapshot.shown at h
  split at h
  · cases h
  · next hclaimed =>
    obtain ⟨hrow, hkeep⟩ := Option.filter_eq_some_iff.mp h
    exact ⟨by simpa using hclaimed, hrow, (Bool.and_eq_true_iff.mp hkeep).1⟩

theorem wanted_ok {r : MemoryEntry} (h : r ∈ s.wanted spec earlier namespace_) :
    s.shown spec earlier namespace_ r.id = some r := by
  obtain ⟨id, hid, hshown⟩ := List.mem_filterMap.mp h
  obtain ⟨hit, hhit, rfl⟩ := List.mem_map.mp (mem_fromkeys.mp hid)
  have hrow := s.ranked namespace_ hit hhit
  rw [(shown_ok hshown).2.1] at hrow
  obtain rfl := Option.some.inj hrow
  exact hshown

theorem wanted_nodup (s : Snapshot) (spec : RecallSpec) (earlier : List String)
    (namespace_ : String) : ((s.wanted spec earlier namespace_).map (·.id)).Nodup := by
  have hsub : ∀ ids : List String, (∀ id ∈ ids, id ∈ (s.ranking namespace_).map (·.id)) →
      ((ids.filterMap (s.shown spec earlier namespace_)).map (·.id)).Sublist ids := by
    intro ids hids
    induction ids with
    | nil => exact List.Sublist.slnil
    | cons id ids ih =>
        have hrest := ih fun x hx => hids x (List.mem_cons_of_mem _ hx)
        rw [List.filterMap_cons]
        cases hshown : s.shown spec earlier namespace_ id with
        | none => exact hrest.cons _
        | some r =>
            obtain ⟨hit, hhit, rfl⟩ := List.mem_map.mp (hids id (List.mem_cons_self ..))
            have hrow := s.ranked namespace_ hit hhit
            rw [(shown_ok hshown).2.1] at hrow
            obtain rfl := Option.some.inj hrow
            exact hrest.cons_cons _
  exact (fromkeys_nodup _).sublist (hsub _ fun id hid => mem_fromkeys.mp hid)

/-! ## The fetch by ids -/

/-- The ids a namespace settles: those not found before for which it holds an admitted row. -/
def settled (admission : RecallAdmission) (rowsFor : String → List MemoryEntry)
    (found : Dict String MemoryEntry) (ids : List String) : Dict String MemoryEntry :=
  ids.filterMap fun id =>
    if Dict.has found id then none else (admission.representative (rowsFor id)).map (id, ·)

theorem settleIds_eq {admission : RecallAdmission} {rowsFor : String → List MemoryEntry}
    {cap : Option Nat} {ids : List String} (hn : ids.Nodup) {found : Dict String MemoryEntry}
    {taken : Nat} (hcap : ∀ c ∈ cap, taken + (settled admission rowsFor found ids).length ≤ c) :
    settleIds admission rowsFor cap ids found taken =
      found ++ settled admission rowsFor found ids := by
  induction ids generalizing found taken with
  | nil => simp [settleIds, settled]
  | cons id ids ih =>
      obtain ⟨hid, hrest⟩ := List.nodup_cons.mp hn
      rw [settleIds]
      by_cases hfull : cap.any (· ≤ taken) = true
      · rw [if_pos hfull]
        obtain ⟨c, rfl, hc⟩ := (Option.any_eq_true ..).mp hfull
        have hc := of_decide_eq_true hc
        have hzero : settled admission rowsFor found (id :: ids) = [] :=
          List.eq_nil_of_length_eq_zero (by have := hcap c rfl; omega)
        rw [hzero, List.append_nil]
      rw [if_neg hfull]
      by_cases hhas : Dict.has found id = true
      · have hskip : settled admission rowsFor found (id :: ids) =
            settled admission rowsFor found ids := by simp [settled, hhas]
        rw [if_pos hhas, hskip]
        rw [hskip] at hcap
        exact ih hrest hcap
      rw [if_neg hhas]
      cases hrow : admission.representative (rowsFor id) with
      | none =>
          have hskip : settled admission rowsFor found (id :: ids) =
              settled admission rowsFor found ids := by simp [settled, hhas, hrow]
          rw [hskip]
          rw [hskip] at hcap
          exact ih hrest hcap
      | some row =>
          have hnew : settled admission rowsFor found (id :: ids) =
              (id, row) :: settled admission rowsFor found ids := by simp [settled, hhas, hrow]
          have hkeys : id ∉ found.map (·.1) := by
            rw [← Dict.lookup_isSome_iff]
            exact hhas
          have hsame : settled admission rowsFor (found ++ [(id, row)]) ids =
              settled admission rowsFor found ids := by
            refine List.filterMap_congr fun x hx => ?_
            have hne : id ≠ x := fun h => hid (h ▸ hx)
            have hsee : Dict.has (found ++ [(id, row)]) x = Dict.has found x := by
              rw [Dict.has, Dict.has, Dict.lookup_append, Dict.lookup_cons, if_neg hne]
              simp
            rw [hsee]
          dsimp only
          rw [Dict.set_eq_append hkeys, ih hrest (by
            intro c hc
            have := hcap c hc
            rw [hnew, List.length_cons] at this
            rw [hsame]
            omega), hsame, hnew, List.append_assoc, List.singleton_append]

/-- The items of rows under their ids. -/
def keyed (rows : List MemoryEntry) : Dict String MemoryEntry := rows.map fun r => (r.id, r)

theorem filterMap_keyed (rows : List MemoryEntry) :
    rows.filterMap (fun r => some (r.id, r)) = keyed rows := by
  rw [keyed, ← List.filterMap_eq_map]
  rfl

theorem keys_keyed (rows : List MemoryEntry) : (keyed rows).map (·.1) = rows.map (·.id) := by
  simp [keyed, Function.comp_def]

theorem lookup_keyed_rows {rows : List MemoryEntry} (hn : (rows.map (·.id)).Nodup) :
    (rows.map (·.id)).filterMap (Dict.lookup (keyed rows)) = rows := by
  rw [List.filterMap_map]
  have hself : ∀ r ∈ rows, Dict.lookup (keyed rows) r.id = some r := fun r hr =>
    Dict.lookup_of_mem (by rwa [keys_keyed]) (List.mem_map.mpr ⟨r, hr, rfl⟩)
  rw [show rows.filterMap (Dict.lookup (keyed rows) ∘ (·.id)) = rows.filterMap some from
    List.filterMap_congr hself, List.filterMap_some]

theorem settleAll_eq {first second : String} {rows₁ rows₂ : List MemoryEntry}
    (hn : ((rows₁ ++ rows₂).map (·.id)).Nodup)
    (h₁ : ∀ r ∈ rows₁, s.shown spec [] first r.id = some r)
    (h₂ : ∀ r ∈ rows₂, s.shown spec [first] second r.id = some r)
    (hc₁ : rows₁.length ≤ capOf spec userRecallCap first)
    (hc₂ : rows₂.length ≤ capOf spec userRecallCap second) {spec' : RecallSpec}
    (hadmission : spec'.admission = spec.admission)
    (hids : spec'.ids = (rows₁ ++ rows₂).map (·.id)) :
    settleAll spec' userRecallCap s.row [first, second] = keyed (rows₁ ++ rows₂) := by
  obtain ⟨hn₁, hn₂, hapart⟩ := List.nodup_append.mp (List.map_append ▸ hn)
  have hcap : ∀ {namespace_ : String} {n : Nat}, n ≤ capOf spec userRecallCap namespace_ →
      ∀ c ∈ (if namespace_ = userNamespace then some userRecallCap else none), 0 + n ≤ c := by
    intro namespace_ n hle c hc
    split at hc
    · next huser =>
      rw [capOf, if_pos huser] at hle
      obtain rfl := Option.some.inj hc
      omega
    · cases hc
  -- the first namespace settles its own rows
  have hfirst : settled spec.admission (rowsIn s.row first) [] ((rows₁ ++ rows₂).map (·.id)) =
      keyed rows₁ := by
    have hown : (rows₁.map (·.id)).filterMap (fun id =>
        if Dict.has ([] : Dict String MemoryEntry) id then none
        else (spec.admission.representative (rowsIn s.row first id)).map (id, ·)) = keyed rows₁ := by
      rw [List.filterMap_map, ← filterMap_keyed]
      refine List.filterMap_congr fun r hr => ?_
      obtain ⟨-, hrow, hadmits⟩ := shown_ok (h₁ r hr)
      simp [Dict.has, representative_rowsIn, hrow, hadmits, Option.filter]
    have hother : (rows₂.map (·.id)).filterMap (fun id =>
        if Dict.has ([] : Dict String MemoryEntry) id then none
        else (spec.admission.representative (rowsIn s.row first id)).map (id, ·)) = [] := by
      rw [List.filterMap_eq_nil_iff]
      intro id hid
      obtain ⟨r, hr, rfl⟩ := List.mem_map.mp hid
      have hunclaimed := (shown_ok (h₂ r hr)).1
      have hnone : spec.admission.representative (rowsIn s.row first r.id) = none := by
        simpa [claimedBy] using hunclaimed
      simp [Dict.has, hnone]
    rw [settled, List.map_append, List.filterMap_append, hown, hother, List.append_nil]
  -- and the second the rest
  have hsecond : settled spec.admission (rowsIn s.row second) (keyed rows₁)
      ((rows₁ ++ rows₂).map (·.id)) = keyed rows₂ := by
    have hown : (rows₁.map (·.id)).filterMap (fun id =>
        if Dict.has (keyed rows₁) id then none
        else (spec.admission.representative (rowsIn s.row second id)).map (id, ·)) = [] := by
      rw [List.filterMap_eq_nil_iff]
      intro id hid
      have hhas : Dict.has (keyed rows₁) id = true := by
        rw [Dict.has, Dict.lookup_isSome_iff, keys_keyed]
        exact hid
      rw [if_pos hhas]
    have hother : (rows₂.map (·.id)).filterMap (fun id =>
        if Dict.has (keyed rows₁) id then none
        else (spec.admission.representative (rowsIn s.row second id)).map (id, ·)) =
          keyed rows₂ := by
      rw [List.filterMap_map, ← filterMap_keyed rows₂]
      refine List.filterMap_congr fun r hr => ?_
      obtain ⟨-, hrow, hadmits⟩ := shown_ok (h₂ r hr)
      have hhas : Dict.has (keyed rows₁) r.id = false := by
        rw [Dict.has, Option.isSome_eq_false_iff, Option.isNone_iff_eq_none,
          Dict.lookup_eq_none_iff, keys_keyed]
        exact fun hmem => hapart _ hmem _ (List.mem_map.mpr ⟨r, hr, rfl⟩) rfl
      simp [hhas, representative_rowsIn, hrow, hadmits, Option.filter]
    rw [settled, List.map_append, List.filterMap_append, hown, hother, List.nil_append]
  have hlength : ∀ rows : List MemoryEntry, (keyed rows).length = rows.length := fun rows => by
    rw [keyed, List.length_map]
  have hafter₁ : settleIds spec.admission (rowsIn s.row first)
      (if first = userNamespace then some userRecallCap else none)
      ((rows₁ ++ rows₂).map (·.id)) [] 0 = keyed rows₁ := by
    rw [settleIds_eq hn (by rw [hfirst, hlength]; exact hcap hc₁), hfirst, List.nil_append]
  have hafter₂ : settleIds spec.admission (rowsIn s.row second)
      (if second = userNamespace then some userRecallCap else none)
      ((rows₁ ++ rows₂).map (·.id)) (keyed rows₁) 0 = keyed rows₁ ++ keyed rows₂ := by
    rw [settleIds_eq hn (by rw [hsecond, hlength]; exact hcap hc₂), hsecond]
  rw [settleAll, hadmission, hids, fromkeys_eq_self hn, List.foldl_cons, List.foldl_cons,
    List.foldl_nil, hafter₁, hafter₂]
  exact List.map_append.symm

end

/-! ## Both paths -/

/-- A recall by query over a project and the user namespace ends, and a fetch of the ids of its rows
gives its rows; where they are in reach, each namespace contributes what the plain filter takes. -/
theorem recall_paths_agree (s : Snapshot) (spec : RecallSpec) (userRecallCap : Nat)
    (project : String) (hids : spec.ids = []) (htop : 1 ≤ spec.topK)
    (hsingle : spec.singlePage = false) {rounds : Nat} (hrounds : defaultListLimit ≤ rounds) :
    ∃ fromProject fromUser : List MemoryEntry,
      recallNamespaces spec userRecallCap s.page s.row rounds [project, userNamespace] =
          some (fromProject ++ fromUser) ∧
        ((fromProject ++ fromUser).map (·.id)).Nodup ∧
        (∀ r ∈ fromProject, s.row project r.id = some r) ∧
        (∀ r ∈ fromUser, s.row userNamespace r.id = some r) ∧
        (∀ spec' : RecallSpec, spec'.admission = spec.admission →
          spec'.ids = (fromProject ++ fromUser).map (·.id) →
          (fromProject ++ fromUser = [] → spec' = spec) →
          recallNamespaces spec' userRecallCap s.page s.row rounds [project, userNamespace] =
            some (fromProject ++ fromUser)) ∧
        (s.InReach spec (capOf spec userRecallCap project) [] [] project →
          fromProject =
            (s.wanted spec [] project).take (capOf spec userRecallCap project)) ∧
        (s.InReach spec userRecallCap [project] (fromProject.map (·.id)) userNamespace →
          fromUser = (s.wanted spec [project] userNamespace).take userRecallCap) := by
  have huser : capOf spec userRecallCap userNamespace = userRecallCap := if_pos rfl
  obtain ⟨rows₁, hrun₁, hfront₁, hcap₁, hreach₁⟩ := takeHits_spec s spec userRecallCap [] [] project
    (fun _ h => nomatch h) hsingle htop hrounds
  have hshown₁ : ∀ r ∈ rows₁, s.shown spec [] project r.id = some r := fun r hr =>
    wanted_ok (hfront₁.subset hr)
  -- the project holds an admitted row under each id it has shown
  have hclaims : Claims s spec [project] (rows₁.map (·.id)) := by
    intro id hid
    obtain ⟨r, hr, rfl⟩ := List.mem_map.mp hid
    obtain ⟨-, hrow, hadmits⟩ := shown_ok (hshown₁ r hr)
    simp [claimedBy, representative_rowsIn, hrow, hadmits, Option.filter]
  obtain ⟨rows₂, hrun₂, hfront₂, hcap₂, hreach₂⟩ := takeHits_spec s spec userRecallCap
    [project] (rows₁.map (·.id)) userNamespace hclaims hsingle htop hrounds
  have hshown₂ : ∀ r ∈ rows₂, s.shown spec [project] userNamespace r.id = some r := fun r hr =>
    wanted_ok (hfront₂.subset hr)
  have hn : ((rows₁ ++ rows₂).map (·.id)).Nodup := by
    rw [List.map_append, List.nodup_append]
    refine ⟨(wanted_nodup s spec [] project).sublist (hfront₁.sublist.map _),
      (wanted_nodup s spec [project] userNamespace).sublist (hfront₂.sublist.map _), ?_⟩
    rintro id hid₁ _ hid₂ rfl
    obtain ⟨r, hr, hid⟩ := List.mem_map.mp hid₂
    have hunclaimed := (shown_ok (hshown₂ r hr)).1
    rw [hid, hclaims id hid₁] at hunclaimed
    cases hunclaimed
  have hquery : recallNamespaces spec userRecallCap s.page s.row rounds [project, userNamespace] =
      some (rows₁ ++ rows₂) := by
    rw [recallNamespaces, if_neg (not_not.mpr hids)]
    change (takeHits (takeArgs s spec userRecallCap [] [] project) rounds
      (s.page project)).bind _ = _
    rw [hrun₁]
    change (takeHits (takeArgs s spec userRecallCap [project] (rows₁.map (·.id)) userNamespace)
      rounds (s.page userNamespace)).bind _ = _
    rw [hrun₂]
    rfl
  refine ⟨rows₁, rows₂, hquery, hn, fun r hr => (shown_ok (hshown₁ r hr)).2.1,
    fun r hr => (shown_ok (hshown₂ r hr)).2.1, ?_, hreach₁, ?_⟩
  · intro spec' hadmission hids' hempty
    by_cases hnone : rows₁ ++ rows₂ = []
    · rw [hempty hnone]
      exact hquery
    · have hnonempty : spec'.ids ≠ [] := by
        rw [hids']
        simpa using hnone
      rw [recallNamespaces, if_pos hnonempty]
      dsimp only
      rw [settleAll_eq hn hshown₁ hshown₂ hcap₁ hcap₂ hadmission hids', hids',
        fromkeys_eq_self hn, lookup_keyed_rows hn]
  · rw [huser] at hreach₂
    exact hreach₂

/-! The project and the user hold a copy of one row; the user holds another one. -/

def sampleRow (id namespace_ : String) : MemoryEntry where
  id := id
  namespace_ := namespace_
  status := "active"
  importance := 1
  tags := []
  updatedAt := 0

def sampleRows (namespace_ : String) : List MemoryEntry :=
  if namespace_ = userNamespace then [sampleRow "a" userNamespace, sampleRow "b" userNamespace]
  else [sampleRow "a" namespace_]

def sampleSnapshot : Snapshot where
  row namespace_ id := (sampleRows namespace_).find? fun r => decide (r.id = id)
  ranking := sampleRows
  ranked namespace_ := by
    rw [sampleRows]
    split
    · decide
    · intro hit hmem
      obtain rfl := List.mem_singleton.mp hmem
      exact List.find?_cons_of_pos (by exact decide_eq_true rfl)

def sampleSpec : RecallSpec where
  admission := { admits := fun r => decide (r.status = "active"), memStatus := none }

/-- The copy is shown once, and both namespaces contribute what is in reach. -/
theorem recall_paths_agree_sample : ∃ fromProject fromUser : List MemoryEntry,
    recallNamespaces sampleSpec 5 sampleSnapshot.page sampleSnapshot.row defaultListLimit
        ["project", userNamespace] = some (fromProject ++ fromUser) ∧
      fromProject = [sampleRow "a" "project"] ∧ fromUser = [sampleRow "b" userNamespace] := by
  obtain ⟨fromProject, fromUser, hrun, -, -, -, -, hproject, huser⟩ :=
    recall_paths_agree sampleSnapshot sampleSpec 5 "project" rfl (by decide) rfl
      (Nat.le_refl defaultListLimit)
  obtain rfl : fromProject = [sampleRow "a" "project"] :=
    (hproject ⟨1, by decide, by decide, by decide⟩).trans (by decide)
  obtain rfl : fromUser = [sampleRow "b" userNamespace] :=
    (huser ⟨2, by decide, by decide, by decide⟩).trans (by decide)
  exact ⟨_, _, hrun, rfl, rfl⟩

end TrwMcp.Recall
