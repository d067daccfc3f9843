import Mathlib.Data.List.Sort
import Mathlib.Data.List.MinMax
import Mathlib.Order.Lattice

/-!
# The best of a stream

A heap of bounded size that drops its worst entry, what it holds after a whole stream, and when two
selections from one list have the same best entries. Entries are ranked by a key.
-/

namespace TrwMcp.Lib

variable {β κ : Type} [LinearOrder κ] (key : β → κ)

/-- One entry of the stream: `heappush` while there is room, else `heapreplace` of a worse entry. The
heap is listed with its least entry first. -/
def keepBest (limit : Nat) (heap : List β) (x : β) : List β :=
  if heap.length < limit then heap.orderedInsert (fun a b => key a ≤ key b) x
  else
    match heap with
    | [] => []
    | worst :: rest =>
        if key worst < key x then rest.orderedInsert (fun a b => key a ≤ key b) x
        else worst :: rest

/-- The first `limit` entries, the best one first. -/
def best (limit : Nat) (l : List β) : List β :=
  (l.insertionSort fun a b => key b ≤ key a).take limit

variable {key}

/-! ## Sorting by the key -/

theorem pairwise_sort (l : List β) :
    (l.insertionSort fun a b => key a ≤ key b).Pairwise fun a b => key a ≤ key b :=
  have : Std.Total (fun a b : β => key a ≤ key b) := ⟨fun _ _ => le_total _ _⟩
  have : IsTrans β (fun a b => key a ≤ key b) := ⟨fun _ _ _ h h' => le_trans h h'⟩
  List.pairwise_insertionSort _ _

theorem ranked_insertionSort (l : List β) :
    (l.insertionSort fun a b => key b ≤ key a).Pairwise fun a b => key b ≤ key a :=
  have : Std.Total (fun a b : β => key b ≤ key a) := ⟨fun _ _ => le_total _ _⟩
  have : IsTrans β (fun a b => key b ≤ key a) := ⟨fun _ _ _ h h' => le_trans h' h⟩
  List.pairwise_insertionSort _ _

/-! ## The heap -/

theorem orderedInsert_above {A T : List β} {h x : β}
    (hsorted : (A ++ h :: T).Pairwise fun a b => key a ≤ key b) (hx : key h < key x) :
    (A ++ h :: T).orderedInsert (fun a b => key a ≤ key b) x =
      A ++ h :: T.orderedInsert (fun a b => key a ≤ key b) x := by
  induction A with
  | nil => simp [not_le.mpr hx]
  | cons a A ih =>
      rw [List.cons_append, List.pairwise_cons] at hsorted
      have hle : key a ≤ key h := hsorted.1 h (by simp)
      rw [List.cons_append, List.orderedInsert, if_neg (not_le.mpr (hle.trans_lt hx)),
        ih hsorted.2, List.cons_append]

theorem orderedInsert_below {A T : List β} {h x : β} (hx : key x ≤ key h) :
    (A ++ h :: T).orderedInsert (fun a b => key a ≤ key b) x =
      A.orderedInsert (fun a b => key a ≤ key b) x ++ h :: T := by
  induction A with
  | nil => simp [List.orderedInsert, hx]
  | cons a A ih =>
      simp only [List.cons_append, List.orderedInsert]
      split
      · rfl
      · rw [ih, List.cons_append]

/-- The heap holds the last entries of the ordered stream. -/
theorem foldl_keepBest {limit : Nat} (hlimit : 0 < limit) (rows : List β) :
    rows.foldl (keepBest key limit) [] =
      (rows.reverse.insertionSort fun a b => key a ≤ key b).drop (rows.length - limit) := by
  induction rows using List.reverseRecOn with
  | nil => simp
  | append_singleton rows x ih =>
      rw [List.foldl_append, List.foldl_cons, List.foldl_nil, ih, List.reverse_concat,
        List.insertionSort, List.foldr_cons]
      change keepBest key limit ((rows.reverse.insertionSort fun a b => key a ≤ key b).drop
        (rows.length - limit)) x = ((rows.reverse.insertionSort fun a b => key a ≤ key b).orderedInsert
          (fun a b => key a ≤ key b) x).drop ((rows ++ [x]).length - limit)
      have hsorted := @pairwise_sort β κ _ key rows.reverse
      have hlength : (rows.reverse.insertionSort fun a b => key a ≤ key b).length = rows.length := by
        rw [List.length_insertionSort, List.length_reverse]
      generalize (rows.reverse.insertionSort fun a b => key a ≤ key b) = S at hsorted hlength ⊢
      rw [List.length_append, List.length_singleton, ← hlength]
      by_cases hroom : S.length < limit
      · have hdrop : S.length - limit = 0 := by omega
        have hdrop' : S.length + 1 - limit = 0 := by omega
        rw [hdrop, hdrop', List.drop_zero, List.drop_zero, keepBest.eq_def, if_pos hroom]
      · have hfull : (S.drop (S.length - limit)).length = limit := by
          rw [List.length_drop]
          omega
        have hsplit := List.take_append_drop (S.length - limit) S
        have htake : (S.take (S.length - limit)).length = S.length - limit := by
          rw [List.length_take]
          omega
        rw [keepBest.eq_def, if_neg (by omega)]
        cases hheap : S.drop (S.length - limit) with
        | nil =>
            rw [hheap, List.length_nil] at hfull
            omega
        | cons worst rest =>
            rw [hheap] at hsplit
            have hstep : S.length + 1 - limit = (S.take (S.length - limit)).length + 1 := by omega
            simp only
            rw [hstep]
            generalize S.take (S.length - limit) = A at hsplit
            rw [← hsplit] at hsorted ⊢
            split
            · next hworse =>
                rw [orderedInsert_above hsorted hworse]
                simp
            · next hbetter =>
                rw [orderedInsert_below (not_lt.mp hbetter)]
                have hone : (A.orderedInsert (fun a b => key a ≤ key b) x).length = A.length + 1 :=
                  List.orderedInsert_length _ _ _
                rw [← hone, List.drop_left]

/-! ## Ranked lists -/

/-- Two lists of the same entries, ranked, where no two entries have one key. -/
theorem ranked_unique {l m : List β} (hkeys : (l.map key).Nodup) (h : l.Perm m)
    (hl : l.Pairwise fun a b => key b ≤ key a) (hm : m.Pairwise fun a b => key b ≤ key a) :
    l = m := by
  refine h.eq_of_pairwise (fun a b ha hb hab hba => ?_) hl hm
  exact List.inj_on_of_nodup_map hkeys ha (h.mem_iff.mpr hb) (le_antisymm hba hab)

theorem sort_perm {l m : List β} (hkeys : (l.map key).Nodup) (h : l.Perm m) :
    (l.insertionSort fun a b => key b ≤ key a) = m.insertionSort fun a b => key b ≤ key a := by
  have hperm := List.perm_insertionSort (fun a b : β => key b ≤ key a)
  refine ranked_unique (((hperm l).map key).nodup_iff.mpr hkeys)
    ((hperm l).trans (h.trans (hperm m).symm)) (ranked_insertionSort l) (ranked_insertionSort m)

/-- The order of the entries does not matter. -/
theorem best_perm {limit : Nat} {l m : List β} (hkeys : (l.map key).Nodup) (h : l.Perm m) :
    best key limit l = best key limit m := by
  rw [best, sort_perm hkeys h, best]

/-- What is in the heap after a whole stream, ranked. -/
theorem sort_foldl_keepBest {limit : Nat} (hlimit : 0 < limit) {rows : List β}
    (hkeys : (rows.map key).Nodup) :
    ((rows.foldl (keepBest key limit) []).insertionSort fun a b => key b ≤ key a) =
      best key limit rows := by
  have hsorted := @pairwise_sort β κ _ key rows.reverse
  have hperm : (rows.reverse.insertionSort fun a b => key a ≤ key b).Perm rows :=
    (List.perm_insertionSort _ _).trans rows.reverse_perm
  rw [foldl_keepBest hlimit, best]
  generalize (rows.reverse.insertionSort fun a b => key a ≤ key b) = S at hsorted hperm
  have hranked : S.reverse = rows.insertionSort fun a b => key b ≤ key a := by
    have hperm' : S.reverse.Perm rows := S.reverse_perm.trans hperm
    refine ranked_unique ((hperm'.map key).nodup_iff.mpr hkeys)
      (hperm'.trans (List.perm_insertionSort _ _).symm) ?_ (ranked_insertionSort rows)
    exact List.pairwise_reverse.mpr hsorted
  have hdropped : ((S.drop (rows.length - limit)).insertionSort fun a b => key b ≤ key a) =
      (S.drop (rows.length - limit)).reverse := by
    have hperm' := List.perm_insertionSort (fun a b : β => key b ≤ key a)
      (S.drop (rows.length - limit))
    refine ranked_unique ?_ (hperm'.trans (List.reverse_perm _).symm) (ranked_insertionSort _) ?_
    · rw [(hperm'.map key).nodup_iff]
      exact ((hperm.map key).nodup_iff.mpr hkeys).sublist ((List.drop_sublist _ _).map key)
    · exact List.pairwise_reverse.mpr (hsorted.sublist (List.drop_sublist _ _))
  rw [hdropped, ← hranked, List.reverse_drop, hperm.length_eq]
  by_cases hle : rows.length ≤ limit
  · rw [Nat.sub_eq_zero_of_le hle, Nat.sub_zero, List.take_of_length_le, List.take_of_length_le]
    · rw [List.length_reverse, hperm.length_eq]
      exact hle
    · rw [List.length_reverse, hperm.length_eq]
  · congr 1
    omega

/-! ## Two selections -/

/-- How many of the entries come before `c`. -/
def before (key : β → κ) (l : List β) (c : β) : Nat := l.countP fun d => decide (key c < key d)

theorem mem_take_ranked {limit : Nat} {l : List β} {c : β}
    (hl : l.Pairwise fun a b => key b < key a) :
    c ∈ l.take limit ↔ c ∈ l ∧ before key l c < limit := by
  induction l generalizing limit with
  | nil => simp
  | cons a l ih =>
      rw [List.pairwise_cons] at hl
      cases limit with
      | zero => simp
      | succ limit =>
          rw [List.take_succ_cons, List.mem_cons, List.mem_cons, ih hl.2, before, before,
            List.countP_cons]
          by_cases hca : c = a
          · subst hca
            have hzero : l.countP (fun d => decide (key c < key d)) = 0 := by
              rw [List.countP_eq_zero]
              intro d hd
              simpa using (hl.1 d hd).le
            simp [hzero]
          · simp only [hca, false_or]
            refine and_congr_right fun hc => ?_
            rw [if_pos (by simpa using hl.1 c hc)]
            omega

/-- An entry is among the best exactly when fewer than that many come before it. -/
theorem mem_best {limit : Nat} {l : List β} (hkeys : (l.map key).Nodup) {c : β} :
    c ∈ best key limit l ↔ c ∈ l ∧ before key l c < limit := by
  have hperm := List.perm_insertionSort (fun a b : β => key b ≤ key a) l
  have hstrict : (l.insertionSort fun a b => key b ≤ key a).Pairwise fun a b => key b < key a := by
    have hne : (l.insertionSort fun a b => key b ≤ key a).Pairwise fun a b => key a ≠ key b :=
      List.pairwise_map.mp ((hperm.map key).nodup_iff.mpr hkeys)
    exact ((ranked_insertionSort l).and hne).imp fun h => lt_of_le_of_ne h.1 (Ne.symm h.2)
  rw [best, mem_take_ranked hstrict, hperm.mem_iff, before, hperm.countP_eq, before]

theorem best_sublist {limit : Nat} {l : List β} :
    (best key limit l).Sublist (l.insertionSort fun a b => key b ≤ key a) := List.take_sublist _ _

/-- Two selections have the same best entries exactly when every entry on which they differ comes
after as many of the selection it is in. -/
theorem best_filter_iff {limit : Nat} {l : List β} (hkeys : (l.map key).Nodup) (p q : β → Bool) :
    best key limit (l.filter p) = best key limit (l.filter q) ↔
      ∀ c ∈ l, (p c = true → q c = false → limit ≤ before key (l.filter p) c) ∧
        (q c = true → p c = false → limit ≤ before key (l.filter q) c) := by
  have hfilter : ∀ r : β → Bool, ((l.filter r).map key).Nodup := fun r =>
    hkeys.sublist (List.filter_sublist.map key)
  constructor
  · intro heq c hc
    have hboth : c ∈ best key limit (l.filter p) ↔ c ∈ best key limit (l.filter q) := by rw [heq]
    rw [mem_best (hfilter p), mem_best (hfilter q), List.mem_filter, List.mem_filter] at hboth
    refine ⟨fun hp hq => ?_, fun hq hp => ?_⟩
    · by_contra hlt
      have hmem := (hboth.mp ⟨⟨hc, hp⟩, not_le.mp hlt⟩).1.2
      simp [hq] at hmem
    · by_contra hlt
      have hmem := (hboth.mpr ⟨⟨hc, hq⟩, not_le.mp hlt⟩).1.2
      simp [hp] at hmem
  · intro h
    have hbefore : ∀ (r : β → Bool) c, before key (l.filter r) c =
        l.countP fun d => decide (key c < key d) && r d := fun r c => List.countP_filter
    -- above an entry that is among the best, the two selections are one
    have habove : ∀ p q : β → Bool,
        (∀ c ∈ l, (p c = true → q c = false → limit ≤ before key (l.filter p) c) ∧
          (q c = true → p c = false → limit ≤ before key (l.filter q) c)) →
        ∀ c, before key (l.filter p) c < limit → ∀ d ∈ l, key c < key d → p d = q d := by
      intro p q h c hc
      by_contra hno
      push Not at hno
      obtain ⟨d₀, hd₀, hcd₀, hdiff₀⟩ := hno
      cases htop : (l.filter fun d => decide (key c < key d) && (p d != q d)).argmax key with
      | none =>
          rw [List.argmax_eq_none, List.filter_eq_nil_iff] at htop
          exact htop d₀ hd₀ (by simp [hcd₀, hdiff₀])
      | some d =>
          have hd := List.argmax_mem htop
          rw [List.mem_filter, Bool.and_eq_true, decide_eq_true_eq, bne_iff_ne] at hd
          have hsame : ∀ e ∈ l, key d < key e → p e = q e := by
            intro e he hde
            by_contra hne
            have hle := List.le_of_mem_argmax (a := e) (List.mem_filter.mpr ⟨he, by
              simp [hd.2.1.trans hde, hne]⟩) htop
            exact absurd hde (not_lt.mpr hle)
          have hcount : before key (l.filter p) d = before key (l.filter q) d := by
            rw [hbefore, hbefore]
            refine List.countP_congr fun e he => ?_
            by_cases hde : key d < key e
            · simp [hsame e he hde]
            · simp [hde]
          have hmono : before key (l.filter p) d ≤ before key (l.filter p) c := by
            refine List.countP_mono_left fun e _ hde => ?_
            simp only [decide_eq_true_eq] at hde ⊢
            exact hd.2.1.trans hde
          cases hp : p d with
          | true =>
              have hq : q d = false := by
                cases hq : q d with
                | true => exact absurd (hp.trans hq.symm) hd.2.2
                | false => rfl
              have hlimit := (h d hd.1).1 hp hq
              omega
          | false =>
              have hq : q d = true := by
                cases hq : q d with
                | true => rfl
                | false => exact absurd (hp.trans hq.symm) hd.2.2
              have hlimit := (h d hd.1).2 hq hp
              omega
    have hsub : ∀ p q : β → Bool,
        (∀ c ∈ l, (p c = true → q c = false → limit ≤ before key (l.filter p) c) ∧
          (q c = true → p c = false → limit ≤ before key (l.filter q) c)) →
        ∀ c, c ∈ best key limit (l.filter p) → c ∈ best key limit (l.filter q) := by
      intro p q h c hc
      rw [mem_best (hfilter p), List.mem_filter] at hc
      rw [mem_best (hfilter q), List.mem_filter]
      obtain ⟨⟨hmem, hp⟩, hlt⟩ := hc
      have hcount : before key (l.filter q) c = before key (l.filter p) c := by
        rw [hbefore, hbefore]
        refine List.countP_congr fun e he => ?_
        by_cases hce : key c < key e
        · simp [habove p q h c hlt e he hce]
        · simp [hce]
      refine ⟨⟨hmem, ?_⟩, hcount ▸ hlt⟩
      cases hq : q c with
      | true => rfl
      | false => exact absurd ((h c hmem).1 hp hq) (not_le.mpr hlt)
    have hnodup : ∀ r : β → Bool, ((best key limit (l.filter r)).map key).Nodup := fun r =>
      (((List.perm_insertionSort _ _).map key).nodup_iff.mpr (hfilter r)).sublist
        (best_sublist.map key)
    refine ranked_unique (hnodup p) ?_ ((ranked_insertionSort _).sublist best_sublist)
      ((ranked_insertionSort _).sublist best_sublist)
    rw [List.perm_ext_iff_of_nodup (hnodup p).of_map (hnodup q).of_map]
    exact fun c => ⟨hsub p q h c, hsub q p (fun c hc => (h c hc).symm) c⟩

end TrwMcp.Lib
