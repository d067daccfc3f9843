import Mathlib.Data.List.Basic
import Mathlib.Logic.Function.Basic
import Mathlib.Order.Basic

/-!
# Names and open files

A name leads to a node, and what is open is the node: a write through it goes to the node whatever
name it has by then, or when it has none. A rename moves a name and takes the name it is moved to
away from the node that had it.
-/

namespace TrwMcp.Lib

universe u v

structure Files (N : Type u) (L : Type v) where
  node : N → Option Nat := fun _ => none
  text : Nat → List L := fun _ => []
  next : Nat := 0

namespace Files

variable {N : Type u} {L : Type v} [DecidableEq N]

/-- A new node with this text takes the name. -/
@[grind =] def publish (fs : Files N L) (n : N) (lines : List L) : Files N L where
  node := Function.update fs.node n (some fs.next)
  text := Function.update fs.text fs.next lines
  next := fs.next + 1

/-- The node a name leads to, made when there is none. -/
def openNode (fs : Files N L) (n : N) : Nat := (fs.node n).getD fs.next

/-- The files once the name is opened so. -/
@[grind =] def opened (fs : Files N L) (n : N) : Files N L :=
  if (fs.node n).isSome then fs else fs.publish n []

/-- An append to an open node. -/
def write (fs : Files N L) (i : Nat) (lines : List L) : Files N L :=
  { fs with text := Function.update fs.text i (fs.text i ++ lines) }

def truncate (fs : Files N L) (i : Nat) : Files N L :=
  { fs with text := Function.update fs.text i [] }

/-- A rename of a name that is there. -/
@[grind =] def rename (fs : Files N L) (m n : N) : Files N L :=
  { fs with node := Function.update (Function.update fs.node n (fs.node m)) m none }

def unlink (fs : Files N L) (n : N) : Files N L :=
  { fs with node := Function.update fs.node n none }

/-- What a name leads to. -/
@[grind =] def read (fs : Files N L) (n : N) : Option (List L) := (fs.node n).map fs.text

/-- Some name leads to the node. -/
def Named (fs : Files N L) (i : Nat) : Prop := ∃ n, fs.node n = some i

/-- Nodes are numbered as they are made, and a node has one name. -/
structure Sound (fs : Files N L) : Prop where
  old : ∀ n i, fs.node n = some i → i < fs.next
  one : ∀ m n i, fs.node m = some i → fs.node n = some i → m = n

omit [DecidableEq N] in
theorem Sound.empty : Sound ({} : Files N L) :=
  ⟨fun _ _ h => (nomatch h), fun _ _ _ h => (nomatch h)⟩

/-! ## What an operation leaves -/

@[simp] theorem text_publish_self (fs : Files N L) (n : N) (lines : List L) :
    (fs.publish n lines).text fs.next = lines := Function.update_self ..

theorem text_publish_old (fs : Files N L) (n : N) (lines : List L) {i : Nat} (h : i < fs.next) :
    (fs.publish n lines).text i = fs.text i := Function.update_of_ne (Nat.ne_of_lt h) _ _

omit [DecidableEq N] in
@[simp] theorem text_write_self (fs : Files N L) (i : Nat) (lines : List L) :
    (fs.write i lines).text i = fs.text i ++ lines := Function.update_self ..

omit [DecidableEq N] in
theorem text_write_ne (fs : Files N L) {i j : Nat} (lines : List L) (h : j ≠ i) :
    (fs.write i lines).text j = fs.text j := Function.update_of_ne h _ _

omit [DecidableEq N] in
theorem mem_write (fs : Files N L) (i : Nat) (lines : List L) {j : Nat} {l : L}
    (h : l ∈ fs.text j) : l ∈ (fs.write i lines).text j := by
  by_cases hj : j = i
  · subst hj
    rw [text_write_self]
    exact List.mem_append_left _ h
  · rwa [text_write_ne fs lines hj]

theorem openNode_named (fs : Files N L) (n : N) : (fs.opened n).node n = some (fs.openNode n) := by
  unfold opened openNode
  cases h : fs.node n with
  | some i => simp [h]
  | none => simp [publish]

theorem node_opened_ne (fs : Files N L) {m n : N} (h : m ≠ n) :
    (fs.opened n).node m = fs.node m := by
  unfold Files.opened
  split
  · rfl
  · exact Function.update_of_ne h _ _

theorem next_opened_le (fs : Files N L) (n : N) : fs.next ≤ (fs.opened n).next := by
  unfold Files.opened
  split
  · exact Nat.le_refl _
  · exact Nat.le_succ _

omit [DecidableEq N] in
/-- The node of an opened name is its old one or a new one. -/
theorem openNode_old_or_new (fs : Files N L) (n : N) :
    fs.node n = some (fs.openNode n) ∨ (fs.node n = none ∧ fs.openNode n = fs.next) := by
  unfold openNode
  cases fs.node n with
  | some i => exact .inl rfl
  | none => exact .inr ⟨rfl, rfl⟩

theorem Named.opened {fs : Files N L} {i : Nat} (h : fs.Named i) (n : N) :
    (fs.opened n).Named i := by
  obtain ⟨m, hm⟩ := h
  unfold Files.opened
  split
  · exact ⟨m, hm⟩
  · next hnone =>
      refine ⟨m, ?_⟩
      have hne : m ≠ n := by
        rintro rfl
        exact hnone (by simp [hm])
      simpa [publish, hne] using hm

theorem text_opened {fs : Files N L} (hfs : fs.Sound) (n : N) {i : Nat} (h : fs.Named i) :
    (fs.opened n).text i = fs.text i := by
  obtain ⟨m, hm⟩ := h
  unfold Files.opened
  split
  · rfl
  · exact text_publish_old fs n [] (hfs.old m i hm)

/-- A rename onto a free name leaves every node its name. -/
theorem Named.rename {fs : Files N L} {i : Nat} (h : fs.Named i) {m n : N}
    (hfree : fs.node n = none) : (fs.rename m n).Named i := by
  obtain ⟨o, ho⟩ := h
  have hn : o ≠ n := by
    rintro rfl
    rw [hfree] at ho
    cases ho
  by_cases hm : o = m
  · subst hm
    exact ⟨n, by simp [Files.rename, Ne.symm hn, ho]⟩
  · exact ⟨o, by simp [Files.rename, hm, hn, ho]⟩

theorem Sound.publish {fs : Files N L} (h : fs.Sound) (n : N) (lines : List L) :
    (fs.publish n lines).Sound := by
  have hnode : ∀ m i, (fs.publish n lines).node m = some i →
      (m = n ∧ i = fs.next) ∨ (m ≠ n ∧ fs.node m = some i) := by
    intro m i hm
    simp only [Files.publish, Function.update_apply] at hm
    split at hm
    · next heq => exact .inl ⟨heq, (Option.some.inj hm).symm⟩
    · next hne => exact .inr ⟨hne, hm⟩
  constructor
  · intro m i hm
    change i < fs.next + 1
    rcases hnode m i hm with ⟨-, rfl⟩ | ⟨-, hm⟩
    · exact Nat.lt_succ_self _
    · exact Nat.lt_succ_of_lt (h.old m i hm)
  · intro m m' i hm hm'
    rcases hnode m i hm with ⟨hn, hi⟩ | ⟨hne, hold⟩ <;>
      rcases hnode m' i hm' with ⟨hn', hi'⟩ | ⟨hne', hold'⟩
    · exact hn.trans hn'.symm
    · exact absurd (h.old _ _ hold') (hi ▸ Nat.lt_irrefl _)
    · exact absurd (h.old _ _ hold) (hi' ▸ Nat.lt_irrefl _)
    · exact h.one _ _ _ hold hold'

theorem Sound.opened {fs : Files N L} (h : fs.Sound) (n : N) : (fs.opened n).Sound := by
  unfold Files.opened
  split
  · exact h
  · exact h.publish n []

omit [DecidableEq N] in
theorem Sound.write {fs : Files N L} (h : fs.Sound) (i : Nat) (lines : List L) :
    (fs.write i lines).Sound := ⟨h.old, h.one⟩

omit [DecidableEq N] in
theorem Sound.truncate {fs : Files N L} (h : fs.Sound) (i : Nat) : (fs.truncate i).Sound :=
  ⟨h.old, h.one⟩

theorem Sound.unlink {fs : Files N L} (h : fs.Sound) (n : N) : (fs.unlink n).Sound := by
  have hnode : ∀ m i, (fs.unlink n).node m = some i → fs.node m = some i := by
    intro m i hm
    simp only [Files.unlink, Function.update_apply] at hm
    split at hm
    · cases hm
    · exact hm
  exact ⟨fun m i hm => h.old m i (hnode m i hm),
    fun m m' i hm hm' => h.one m m' i (hnode m i hm) (hnode m' i hm')⟩

theorem Sound.rename {fs : Files N L} (h : fs.Sound) (m n : N) : (fs.rename m n).Sound := by
  have hnode : ∀ o i, (fs.rename m n).node o = some i →
      (o = n ∧ o ≠ m ∧ fs.node m = some i) ∨ (o ≠ n ∧ o ≠ m ∧ fs.node o = some i) := by
    intro o i ho
    simp only [Files.rename, Function.update_apply] at ho
    split at ho
    · cases ho
    · next hm =>
        split at ho
        · next hn => exact .inl ⟨hn, hm, ho⟩
        · next hn => exact .inr ⟨hn, hm, ho⟩
  constructor
  · intro o i ho
    rcases hnode o i ho with ⟨-, -, ho⟩ | ⟨-, -, ho⟩ <;> exact h.old _ _ ho
  · intro o o' i ho ho'
    rcases hnode o i ho with ⟨hn, hm, hold⟩ | ⟨hn, hm, hold⟩ <;>
      rcases hnode o' i ho' with ⟨hn', hm', hold'⟩ | ⟨hn', hm', hold'⟩
    · exact hn.trans hn'.symm
    · exact absurd (h.one _ _ _ hold hold').symm hm'
    · exact absurd (h.one _ _ _ hold hold') hm
    · exact h.one _ _ _ hold hold'

end Files

end TrwMcp.Lib
