import TrwMcp.Comms.RequestRows

/-!
# One request key names one message

A direct row is stored under the caller's key and a shard under a key derived from it, so one key
may be met in two places. The invariant is of the rows alone, without what a receiver changes: the
keys are unique, a shard key is the one of its recipient, the shards of one key agree, and no direct
row stands beside the shards of its key.
-/

namespace TrwMcp.Comms

open Handoff Lib

/-! ## Derived keys -/

section

variable {lib : Stdlib}

/-- SHA-256 in hexadecimal. -/
def FullDigest (lib : Stdlib) : Prop := ∀ raw, (lib.sha256 raw).toList.length = 64

theorem textDigest_toList (text : String) (size : Nat) :
    (textDigest lib text size).toList = (lib.sha256 text.toUTF8).toList.take size := by
  rw [textDigest, String.toList_ofList]

theorem textDigest_length (hlen : FullDigest lib) (text : String) {size : Nat} (h : size ≤ 64) :
    (textDigest lib text size).toList.length = size := by
  rw [textDigest_toList, List.length_take, hlen]
  omega

theorem shardPrefix_toList (k : String) : (shardPrefix lib k).toList =
    shard :: 'n' :: ((textDigest lib k 32).toList ++ [shard]) := by
  simp [shardPrefix]

theorem shardKey_toList (k scope member : String) : (shardKey lib k scope member).toList =
    shard :: 'n' :: ((textDigest lib k 32).toList ++
      shard :: ((textDigest lib scope 16).toList ++ shard :: member.toList)) := by
  simp [shardKey, shardPrefix]

/-- The key of a row starts with the prefix of a caller's key. -/
def Under (lib : Stdlib) (k requestKey : String) : Prop :=
  (shardPrefix lib k).toList.isPrefixOf requestKey.toList = true

theorem under_shardKey (hlen : FullDigest lib) {k k' scope member : String} :
    Under lib k (shardKey lib k' scope member) ↔ textDigest lib k 32 = textDigest lib k' 32 := by
  rw [Under, shardPrefix_toList, shardKey_toList, List.isPrefixOf_iff_prefix]
  have h := @textDigest_length lib hlen k 32 (by omega)
  have h' := @textDigest_length lib hlen k' 32 (by omega)
  constructor
  · intro hprefix
    simp only [List.cons_prefix_cons, true_and] at hprefix
    have hdigest := (List.prefix_append _ [shard]).trans hprefix
    have heq := List.prefix_of_prefix_length_le hdigest (List.prefix_append _ _) (by omega)
    exact String.toList_inj.mp (heq.eq_of_length (by omega))
  · intro heq
    rw [heq]
    simp [List.cons_prefix_cons]

theorem not_under_of_plain {k requestKey : String} (h : hasControlCharacters requestKey = false) :
    ¬ Under lib k requestKey := by
  rw [Under, shardPrefix_toList]
  intro hprefix
  rw [List.isPrefixOf_iff_prefix] at hprefix
  have hmem : shard ∈ requestKey.toList := hprefix.subset (by simp)
  unfold hasControlCharacters at h
  rw [List.any_eq_false] at h
  exact h shard hmem (by decide)

theorem shardParts_shardKey (hlen : FullDigest lib) {k scope member : String}
    (h : isShardKey (shardKey lib k scope member) = true) :
    scopeDigestOf (shardKey lib k scope member) = some (textDigest lib scope 16) := by
  have hk := @textDigest_length lib hlen k 32 (by omega)
  have hs := @textDigest_length lib hlen scope 16 (by omega)
  have htake : ∀ (xs ys : List Char) (n : Nat), xs.length = n → (xs ++ ys).take n = xs := by
    rintro xs ys n rfl
    exact List.take_left
  have hdrop : ∀ (xs ys : List Char) (n : Nat), xs.length = n → (xs ++ ys).drop n = ys := by
    rintro xs ys n rfl
    exact List.drop_left
  unfold isShardKey at h
  unfold scopeDigestOf
  have hparts : ∀ parts, shardParts (shardKey lib k scope member) = some parts →
      parts.2.1 = textDigest lib scope 16 := by
    intro parts hparts
    unfold shardParts at hparts
    rw [shardKey_toList] at hparts
    simp only [expect, if_true, Option.bind_eq_bind, Option.bind_some, hdrop _ _ 32 hk,
      htake _ _ 32 hk, htake _ _ 16 hs, hdrop _ _ 16 hs, String.ofList_toList, guard,
      Option.pure_def] at hparts
    split_ifs at hparts
    · simp only [Option.bind_some, Option.some.injEq] at hparts
      rw [← hparts]
    · simp at hparts
  obtain ⟨parts, hsome⟩ := Option.isSome_iff_exists.mp h
  rw [hsome, Option.map_some, hparts parts hsome]

end

end TrwMcp.Comms
