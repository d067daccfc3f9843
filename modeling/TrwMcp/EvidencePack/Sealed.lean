import TrwMcp.EvidencePack.Redaction
import TrwMcp.Intent.LedgerRuns
import TrwMcp.Lib.Spread

/-!
# What a sealed entry says

* `walk_eq` — what the walk copies, and whether it changed anything, without the walk's state.
* `copied_image` — every field is there with its own key exactly when no two keys of a map come out
  as one.
* `sealed_iff` — the whole entry: also no field may come out as a key the writer has a use for.
-/

namespace TrwMcp.EvidencePack

open Handoff Intent Lib

section

variable {point : Chokepoint}

/-- A text as it is copied: redacted, then cut. -/
def Chokepoint.cut (point : Chokepoint) (text : String) : String :=
  String.ofList ((point.redact text).toList.take fieldCharLimit)

mutual

/-- What is copied of a value. -/
@[grind =] def image (point : Chokepoint) : Json → Json
  | .str s => .str (point.cut s)
  | .arr xs => .arr (imageItems point xs)
  | .obj ms => .obj (imageMembers point ms [])
  | v => v

@[grind =] def imageItems (point : Chokepoint) : List Json → List Json
  | [] => []
  | x :: xs => image point x :: imageItems point xs

@[grind =] def imageMembers (point : Chokepoint) : List (String × Json) → Dict String Json → Dict String Json
  | [], walked => walked
  | (k, v) :: ms, walked =>
      imageMembers point ms (Dict.set walked (point.cut k)
        (match point.placeholderFor k v with
          | some placeholder => .str placeholder
          | none => image point v))

end

/-- What is copied of the value under a key. -/
def imageUnder (point : Chokepoint) (k : String) (v : Json) : Json :=
  match point.placeholderFor k v with
  | some placeholder => .str placeholder
  | none => image point v

mutual

/-- Some copied text is not the text it was copied from, or is a placeholder. -/
@[grind =] def changes (point : Chokepoint) : Json → Bool
  | .str s => point.redact s != s
  | .arr xs => changesItems point xs
  | .obj ms => changesMembers point ms
  | _ => false

@[grind =] def changesItems (point : Chokepoint) : List Json → Bool
  | [] => false
  | x :: xs => changes point x || changesItems point xs

@[grind =] def changesMembers (point : Chokepoint) : List (String × Json) → Bool
  | [] => false
  | (k, v) :: ms =>
      point.redact k != k || ((match point.placeholderFor k v with
        | some _ => true
        | none => changes point v) || changesMembers point ms)

end

/-! ## The walk without its state -/

theorem text_eq (text path : String) (state : WalkState) :
    (point.text text path state).1 = point.cut text ∧
      (point.text text path state).2.changed = (state.changed || point.redact text != text) := by
  unfold Chokepoint.text
  simp only
  split
  · exact ⟨rfl, rfl⟩
  · next hshort =>
      refine ⟨?_, rfl⟩
      have hle : (point.redact text).toList.length ≤ fieldCharLimit := Nat.le_of_not_lt hshort
      rw [Chokepoint.cut, List.take_of_length_le hle, String.ofList_toList]

/-- What the walk of a value copies, and whether it changed something. -/
def WalksTo (point : Chokepoint) (v : Json) : Prop :=
  ∀ path state, (walk point v path state).1 = image point v ∧
    (walk point v path state).2.changed = (state.changed || changes point v)

theorem walkItems_eq {xs : List Json} (h : ∀ x ∈ xs, WalksTo point x) (path : String) (index : Nat)
    (state : WalkState) : (walkItems point xs path index state).1 = imageItems point xs ∧
      (walkItems point xs path index state).2.changed =
        (state.changed || changesItems point xs) := by
  induction xs generalizing index state with
  | nil => simp [walkItems, imageItems, changesItems]
  | cons x xs ih =>
      obtain ⟨hitem, hchanged⟩ := h x (by simp) (path ++ "[" ++ toString index ++ "]") state
      obtain ⟨hitems, hrest⟩ := ih (fun y hy => h y (List.mem_cons_of_mem _ hy)) (index + 1)
        (walk point x (path ++ "[" ++ toString index ++ "]") state).2
      constructor
      · simp only [walkItems, imageItems, hitem, hitems]
      · simp only [walkItems, changesItems, hrest, hchanged, Bool.or_assoc]

theorem walkMapping_eq {ms : List (String × Json)} (h : ∀ m ∈ ms, WalksTo point m.2)
    (path : String) (walked : Dict String Json) (state : WalkState) :
    (walkMapping point ms path walked state).1 = imageMembers point ms walked ∧
      (walkMapping point ms path walked state).2.changed =
        (state.changed || changesMembers point ms) := by
  induction ms generalizing walked state with
  | nil => simp [walkMapping, imageMembers, changesMembers]
  | cons m ms ih =>
      obtain ⟨k, v⟩ := m
      have ih := ih fun n hn => h n (List.mem_cons_of_mem _ hn)
      obtain ⟨hkey, hkeyed⟩ := @text_eq point k (join path "<key>") state
      simp only [walkMapping, imageMembers, changesMembers, hkey]
      cases hplaceholder : point.placeholderFor k v with
      | some placeholder =>
          obtain ⟨himage, hchanged⟩ := ih (Dict.set walked (point.cut k) (.str placeholder))
            { (point.text k (join path "<key>") state).2 with changed := true }
          refine ⟨himage, ?_⟩
          rw [hchanged]
          simp
      | none =>
          obtain ⟨hvalue, hvalued⟩ := h (k, v) (by simp) (join path (point.cut k))
            (point.text k (join path "<key>") state).2
          obtain ⟨himage, hchanged⟩ := ih (Dict.set walked (point.cut k) (image point v))
            (walk point v (join path (point.cut k)) (point.text k (join path "<key>") state).2).2
          simp only [hvalue]
          refine ⟨himage, ?_⟩
          rw [hchanged, hvalued, hkeyed, Bool.or_assoc, Bool.or_assoc]

theorem walk_eq (v : Json) : WalksTo point v := by
  induction v using Json.ind with
  | null => exact fun path state => by simp [walk, image, changes]
  | bool b => exact fun path state => by simp [walk, image, changes]
  | int n => exact fun path state => by simp [walk, image, changes]
  | float t => exact fun path state => by simp [walk, image, changes]
  | str s =>
      intro path state
      obtain ⟨htext, hchanged⟩ := @text_eq point s path state
      simp only [walk, image, changes, htext, hchanged, and_self]
  | arr xs ih =>
      intro path state
      obtain ⟨hitems, hchanged⟩ := walkItems_eq ih path 0 state
      simp only [walk, image, changes, hitems, hchanged, and_self]
  | obj ms ih =>
      intro path state
      obtain ⟨hmembers, hchanged⟩ := walkMapping_eq ih path [] state
      simp only [walk, image, changes, hmembers, hchanged, and_self]

theorem walkMapping_image (ms : List (String × Json)) (path : String) (state : WalkState) :
    (walkMapping point ms path [] state).1 = imageMembers point ms [] ∧
      (walkMapping point ms path [] state).2.changed =
        (state.changed || changesMembers point ms) :=
  walkMapping_eq (fun m _ => walk_eq m.2) path [] state

/-! ## Every field with its own key -/

mutual

/-- `w` is a copy of `v` in which no field is lost: every field of a map has a key of its own, with
the copy of its value, or the placeholder of its key. -/
@[grind =] def Copied (point : Chokepoint) : Json → Json → Prop
  | .str s, w => w = .str (point.cut s)
  | .arr xs, w => ∃ ys, w = .arr ys ∧ CopiedItems point xs ys
  | .obj ms, w => ∃ walked, w = .obj walked ∧ CopiedMembers point ms walked
  | v, w => w = v

@[grind =] def CopiedItems (point : Chokepoint) : List Json → List Json → Prop
  | [], ys => ys = []
  | x :: xs, ys => ∃ y zs, ys = y :: zs ∧ Copied point x y ∧ CopiedItems point xs zs

@[grind =] def CopiedMembers (point : Chokepoint) : List (String × Json) → Dict String Json → Prop
  | [], _ => True
  | (k, v) :: ms, walked =>
      (∀ m ∈ ms, point.cut m.1 ≠ point.cut k) ∧
        (∃ w, Dict.lookup walked (point.cut k) = some w ∧
          (match point.placeholderFor k v with
            | some placeholder => w = .str placeholder
            | none => Copied point v w)) ∧ CopiedMembers point ms walked

end

/-- `w` is a copy of the value `v` under the key `k`. -/
def CopiedUnder (point : Chokepoint) (k : String) (v w : Json) : Prop :=
  match point.placeholderFor k v with
  | some placeholder => w = .str placeholder
  | none => Copied point v w

mutual

/-- No two keys of a map come out as one, in any map that is walked. -/
@[grind =] def KeysApart (point : Chokepoint) : Json → Prop
  | .arr xs => KeysApartItems point xs
  | .obj ms => KeysApartMembers point ms
  | _ => True

@[grind =] def KeysApartItems (point : Chokepoint) : List Json → Prop
  | [] => True
  | x :: xs => KeysApart point x ∧ KeysApartItems point xs

@[grind =] def KeysApartMembers (point : Chokepoint) : List (String × Json) → Prop
  | [] => True
  | (k, v) :: ms => (∀ m ∈ ms, point.cut m.1 ≠ point.cut k) ∧
      (point.placeholderFor k v = none → KeysApart point v) ∧ KeysApartMembers point ms

end

theorem mem_copied {ms : List (String × Json)} {walked : Dict String Json}
    (h : CopiedMembers point ms walked) : ∀ m ∈ ms, ∃ w,
      Dict.lookup walked (point.cut m.1) = some w ∧ CopiedUnder point m.1 m.2 w := by
  induction ms with
  | nil => simp
  | cons m ms ih =>
      obtain ⟨k, v⟩ := m
      simp only [CopiedMembers] at h
      rintro n hn
      rcases List.mem_cons.mp hn with rfl | hn
      · exact h.2.1
      · exact ih h.2.2 n hn

theorem copied_of_mem {ms : List (String × Json)} {walked : Dict String Json}
    (hapart : KeysApartMembers point ms)
    (h : ∀ m ∈ ms, ∃ w, Dict.lookup walked (point.cut m.1) = some w ∧
      CopiedUnder point m.1 m.2 w) : CopiedMembers point ms walked := by
  induction ms with
  | nil => trivial
  | cons m ms ih =>
      obtain ⟨k, v⟩ := m
      simp only [KeysApartMembers] at hapart
      simp only [CopiedMembers]
      exact ⟨hapart.1, h (k, v) (by simp),
        ih hapart.2.2 fun n hn => h n (List.mem_cons_of_mem _ hn)⟩

theorem lookup_imageMembers_other {ms : List (String × Json)} {key : String}
    (h : ∀ m ∈ ms, point.cut m.1 ≠ key) (walked : Dict String Json) :
    Dict.lookup (imageMembers point ms walked) key = Dict.lookup walked key := by
  induction ms generalizing walked with
  | nil => rfl
  | cons m ms ih =>
      obtain ⟨k, v⟩ := m
      rw [imageMembers, ih fun n hn => h n (List.mem_cons_of_mem _ hn),
        Dict.lookup_set_ne _ (Ne.symm (h (k, v) (by simp)))]

theorem lookup_imageMembers {ms : List (String × Json)} (hapart : KeysApartMembers point ms)
    (walked : Dict String Json) : ∀ m ∈ ms,
      Dict.lookup (imageMembers point ms walked) (point.cut m.1) =
        some (imageUnder point m.1 m.2) := by
  induction ms generalizing walked with
  | nil => simp
  | cons m ms ih =>
      obtain ⟨k, v⟩ := m
      simp only [KeysApartMembers] at hapart
      rintro n hn
      rw [imageMembers]
      rcases List.mem_cons.mp hn with rfl | hn
      · rw [lookup_imageMembers_other hapart.1, Dict.lookup_set_self]
        rfl
      · exact ih hapart.2.2 _ n hn

theorem copied_image (v : Json) (h : KeysApart point v) : Copied point v (image point v) := by
  induction v using Json.ind with
  | null => rfl
  | bool b => rfl
  | int n => rfl
  | float t => rfl
  | str s => rfl
  | arr xs ih =>
      simp only [KeysApart] at h
      refine ⟨_, rfl, ?_⟩
      induction xs with
      | nil => rfl
      | cons x xs ihxs =>
          simp only [KeysApartItems] at h
          exact ⟨_, _, rfl, ih x (by simp) h.1,
            ihxs (fun y hy => ih y (List.mem_cons_of_mem _ hy)) h.2⟩
  | obj ms ih =>
      simp only [KeysApart] at h
      refine ⟨_, rfl, copied_of_mem h fun m hm => ⟨_, lookup_imageMembers h [] m hm, ?_⟩⟩
      have hvalue : point.placeholderFor m.1 m.2 = none → KeysApart point m.2 := by
        clear ih
        induction ms with
        | nil => simp at hm
        | cons n ms ihms =>
            simp only [KeysApartMembers] at h
            rcases List.mem_cons.mp hm with rfl | hm
            · exact h.2.1
            · exact ihms h.2.2 hm
      unfold CopiedUnder imageUnder
      cases hplaceholder : point.placeholderFor m.1 m.2 with
      | some placeholder => rfl
      | none => exact ih m hm (hvalue hplaceholder)

theorem apart_of_copied (v w : Json) (h : Copied point v w) : KeysApart point v := by
  induction v using Json.ind generalizing w with
  | null => trivial
  | bool b => trivial
  | int n => trivial
  | float t => trivial
  | str s => trivial
  | arr xs ih =>
      simp only [Copied] at h
      obtain ⟨ys, -, hitems⟩ := h
      simp only [KeysApart]
      clear w
      induction xs generalizing ys with
      | nil => trivial
      | cons x xs ihxs =>
          simp only [CopiedItems] at hitems
          obtain ⟨y, zs, -, hitem, hrest⟩ := hitems
          exact ⟨ih x (by simp) y hitem,
            ihxs (fun z hz => ih z (List.mem_cons_of_mem _ hz)) zs hrest⟩
  | obj ms ih =>
      simp only [Copied] at h
      obtain ⟨walked, -, hmembers⟩ := h
      simp only [KeysApart]
      clear w
      induction ms with
      | nil => trivial
      | cons m ms ihms =>
          obtain ⟨k, v⟩ := m
          simp only [CopiedMembers] at hmembers
          obtain ⟨hdistinct, ⟨w, -, hvalue⟩, hrest⟩ := hmembers
          refine ⟨hdistinct, fun hnone => ?_,
            ihms (fun n hn => ih n (List.mem_cons_of_mem _ hn)) hrest⟩
          rw [hnone] at hvalue
          exact ih (k, v) (by simp) w hvalue

theorem apart_of_copiedMembers {ms : List (String × Json)} {walked : Dict String Json}
    (h : CopiedMembers point ms walked) : KeysApartMembers point ms := by
  have hobj : Copied point (.obj ms) (.obj walked) := ⟨walked, rfl, h⟩
  simpa only [KeysApart] using apart_of_copied (.obj ms) (.obj walked) hobj

/-! ## The entry -/

variable (lib : Stdlib) (point)

/-- What was cut, as the walk of the source and of the fields leaves it. -/
def cutTexts (source fields : List (String × Json)) : Dict String Nat :=
  (walkMapping point fields "" [] (walkMapping point source "source" [] {}).2).2.truncated

/-- Some copied key or value is not what it was copied from. -/
def somethingChanged (source fields : List (String × Json)) : Bool :=
  changesMembers point source || changesMembers point fields

/-- The label of an entry. -/
def labelOf (changed : Bool) : Option String → String
  | some _ => labelUnknown
  | none => if changed then labelRedacted else labelObserved

/-- The members the fields are spread over. -/
def base (source : List (String × Json)) (asOf : String) : Dict String Json :=
  [("source", .obj (imageMembers point source [])), ("as_of", .str asOf)]

/-- The members that are written over the fields, but for the digest. -/
def own (source fields : List (String × Json)) (reason : Option String) : Dict String Json :=
  ("label", .str (labelOf (somethingChanged point source fields) reason)) ::
    ((reason.map fun text => ("reason", Json.str text)).toList ++
      ((if somethingChanged point source fields then [("redactor", .str redactorName)] else []) ++
        if cutTexts point source fields = [] then []
        else [("truncated", point.truncatedMap (cutTexts point source fields))]))

/-- The entry as it is before its digest is added. -/
def unsealed (source : List (String × Json)) (asOf : String) (fields : List (String × Json))
    (reason : Option String) : Dict String Json :=
  (own point source fields reason).foldl (fun d m => Dict.set d m.1 m.2)
    ((imageMembers point fields []).foldl (fun d m => Dict.set d m.1 m.2) (base point source asOf))

/-- What an entry is to say of what it was made from. -/
structure Faithful (source : List (String × Json)) (asOf : String) (fields : List (String × Json))
    (reason : Option String) (entry : Dict String Json) : Prop where
  digest : Dict.lookup entry "sha256" =
    some (.str (entryDigest lib (entry.filter fun m => m.1 ≠ "sha256")))
  walked : Dict.lookup entry "source" = some (.obj (imageMembers point source []))
  as_of : Dict.lookup entry "as_of" = some (.str asOf)
  why : Dict.lookup entry "reason" = reason.map .str
  label : Dict.lookup entry "label" =
    some (.str (labelOf (somethingChanged point source fields) reason))
  copied : CopiedMembers point fields entry

/-- No field comes out as a member of the writer, or it carries what the writer puts there. -/
structure Spreads (source : List (String × Json)) (asOf : String) (fields : List (String × Json))
    (reason : Option String) : Prop where
  apart : KeysApartMembers point fields
  no_digest : ∀ m ∈ fields, point.cut m.1 ≠ "sha256"
  no_reason : reason = none → ∀ m ∈ fields, point.cut m.1 ≠ "reason"
  base_kept : ∀ m ∈ fields, ∀ v, Dict.lookup (base point source asOf) (point.cut m.1) = some v →
    imageUnder point m.1 m.2 = v
  own_kept : ∀ m ∈ fields, ∀ v, Dict.lookup (own point source fields reason) (point.cut m.1) = some v →
    CopiedUnder point m.1 m.2 v

variable {lib point} {source fields : List (String × Json)} {asOf : String}
  {reason : Option String}

theorem seal_eq : point.seal lib source asOf fields reason =
    Dict.set (unsealed point source asOf fields reason) "sha256"
      (.str (entryDigest lib (unsealed point source asOf fields reason))) := by
  obtain ⟨hsource, hchanged⟩ := @walkMapping_image point source "source" {}
  obtain ⟨hfields, hchanged'⟩ := @walkMapping_image point fields ""
    (walkMapping point source "source" [] {}).2
  have hsome : (walkMapping point fields "" [] (walkMapping point source "source" [] {}).2).2.changed =
      somethingChanged point source fields := by
    rw [hchanged', hchanged]
    rfl
  unfold Chokepoint.seal unsealed own base cutTexts
  simp only [hsource, hfields, hsome]
  cases reason <;> cases somethingChanged point source fields <;>
    by_cases hcut : (walkMapping point fields "" []
      (walkMapping point source "source" [] {}).2).2.truncated = [] <;>
    simp [hcut, labelOf]

theorem imageMembers_nodup {ms : List (String × Json)} {walked : Dict String Json}
    (hn : (walked.map (·.1)).Nodup) : ((imageMembers point ms walked).map (·.1)).Nodup := by
  induction ms generalizing walked with
  | nil => exact hn
  | cons m ms ih => exact ih (Dict.keys_set_nodup hn _ _)

theorem own_nodup : ((own point source fields reason).map (·.1)).Nodup := by
  unfold own
  cases reason <;> cases somethingChanged point source fields <;>
    by_cases hcut : cutTexts point source fields = [] <;> simp [hcut]

theorem own_no_digest : Dict.lookup (own point source fields reason) "sha256" = none := by
  unfold own
  cases reason <;> cases somethingChanged point source fields <;>
    by_cases hcut : cutTexts point source fields = [] <;> simp [hcut, Dict.lookup_cons]

theorem own_source : Dict.lookup (own point source fields reason) "source" = none := by
  unfold own
  cases reason <;> cases somethingChanged point source fields <;>
    by_cases hcut : cutTexts point source fields = [] <;> simp [hcut, Dict.lookup_cons]

theorem own_as_of : Dict.lookup (own point source fields reason) "as_of" = none := by
  unfold own
  cases reason <;> cases somethingChanged point source fields <;>
    by_cases hcut : cutTexts point source fields = [] <;> simp [hcut, Dict.lookup_cons]

theorem own_label : Dict.lookup (own point source fields reason) "label" =
    some (.str (labelOf (somethingChanged point source fields) reason)) := by
  simp [own, Dict.lookup_cons]

theorem own_reason :
    Dict.lookup (own point source fields reason) "reason" = reason.map .str := by
  unfold own
  cases reason <;> cases somethingChanged point source fields <;>
    by_cases hcut : cutTexts point source fields = [] <;> simp [hcut, Dict.lookup_cons]

theorem lookup_unsealed (key : String) :
    Dict.lookup (unsealed point source asOf fields reason) key =
      (Dict.lookup (own point source fields reason) key).or
        ((Dict.lookup (imageMembers point fields []) key).or
          (Dict.lookup (base point source asOf) key)) := by
  have hfields : ((imageMembers point fields []).map (·.1)).Nodup := imageMembers_nodup (by simp)
  rw [unsealed, Dict.lookup_spread own_nodup, Dict.lookup_spread hfields]

theorem lookup_seal (key : String) :
    Dict.lookup (point.seal lib source asOf fields reason) key =
      if key = "sha256" then
        some (.str (entryDigest lib (unsealed point source asOf fields reason)))
      else Dict.lookup (unsealed point source asOf fields reason) key := by
  rw [seal_eq, Dict.lookup_set]

/-! ## The digest -/

theorem length_joinComma (parts : List (List Char)) :
    (joinComma parts).length = (parts.map fun part => part.length + 1).sum - 1 := by
  induction parts with
  | nil => rfl
  | cons part parts ih =>
      cases parts with
      | nil => simp [joinComma]
      | cons next parts =>
          have hstep : joinComma (part :: next :: parts) = part ++ ',' :: joinComma (next :: parts) := by
            simp [joinComma, List.intercalate]
          rw [hstep, List.length_append, List.length_cons, ih]
          simp only [List.map_cons, List.sum_cons]
          omega

theorem canonicalMembers_eq (ms : List (String × Json)) :
    canonicalMembers lib ms = ms.map fun m => (m.1, canonicalText lib m.2) := by
  induction ms with
  | nil => rfl
  | cons m ms ih => simp [canonicalMembers, ih]

/-- How long the text of a member is, with the comma after it. -/
def memberLength (lib : Stdlib) (m : String × Json) : Nat :=
  (jsonString m.1).length + (canonicalText lib m.2).length + 2

theorem length_canonicalText_obj (ms : List (String × Json)) :
    (canonicalText lib (.obj ms)).length = (ms.map (memberLength lib)).sum - 1 + 2 := by
  have hsorted : ((sortByKey (canonicalMembers lib ms)).map
      fun m => (jsonString m.1 ++ ':' :: m.2).length + 1).sum = (ms.map (memberLength lib)).sum := by
    have hperm := (List.perm_insertionSort (fun m n : String × List Char => m.1 ≤ n.1)
      (canonicalMembers lib ms)).map fun m => (jsonString m.1 ++ ':' :: m.2).length + 1
    refine hperm.sum_eq.trans ?_
    rw [canonicalMembers_eq, List.map_map]
    congr 2
    funext m
    simp only [Function.comp_apply, memberLength, List.length_append, List.length_cons]
    omega
  rw [canonicalText, List.length_cons, List.length_append, length_joinComma, List.map_map]
  simp only [Function.comp_def, List.length_singleton]
  rw [hsorted]

theorem length_filter_lt {ms : List (String × Json)} {key : String} (h : key ∈ ms.map (·.1)) :
    (canonicalText lib (.obj (ms.filter fun m => m.1 ≠ key))).length <
      (canonicalText lib (.obj ms)).length := by
  have hsum : ((ms.filter fun m => m.1 ≠ key).map (memberLength lib)).sum + 2 ≤
      (ms.map (memberLength lib)).sum := by
    have hle : ∀ ms : List (String × Json), ((ms.filter fun m => m.1 ≠ key).map
        (memberLength lib)).sum ≤ (ms.map (memberLength lib)).sum := fun ms =>
      ((List.filter_sublist (l := ms)).map _).sum_le_sum fun _ _ => Nat.zero_le _
    induction ms with
    | nil => simp at h
    | cons m ms ih =>
        by_cases hkey : m.1 = key
        · have hms := hle ms
          simp only [List.filter_cons, hkey, List.map_cons, List.sum_cons] at hms ⊢
          simp only [memberLength] at hms ⊢
          simp at hms ⊢
          omega
        · rw [List.map_cons, List.mem_cons] at h
          have hms := ih (h.resolve_left (Ne.symm hkey))
          rw [List.filter_cons, if_pos (by simpa using hkey)]
          simp only [List.map_cons, List.sum_cons]
          omega
  rw [length_canonicalText_obj, length_canonicalText_obj]
  omega

theorem filter_set (d : Dict String Json) (key : String) (v : Json) :
    (Dict.set d key v).filter (fun m => m.1 ≠ key) = d.filter fun m => m.1 ≠ key := by
  induction d with
  | nil => simp [Dict.set]
  | cons m d ih =>
      obtain ⟨k, w⟩ := m
      rw [Dict.set]
      split
      · next h => simp [h]
      · next h =>
          rw [List.filter_cons, List.filter_cons, ih]

theorem digest_of_none {entry : Dict String Json} (h : Dict.lookup entry "sha256" = none) :
    entry.filter (fun m => m.1 ≠ "sha256") = entry := by
  rw [Dict.lookup_eq_none_iff] at h
  rw [List.filter_eq_self]
  intro m hm
  have hne : m.1 ≠ "sha256" := fun heq => h (heq ▸ List.mem_map_of_mem hm)
  simpa using hne

theorem none_of_digest (hsha : Function.Injective lib.sha256) {entry : Dict String Json}
    (h : entryDigest lib entry = entryDigest lib (entry.filter fun m => m.1 ≠ "sha256")) :
    Dict.lookup entry "sha256" = none := by
  rw [Dict.lookup_eq_none_iff]
  intro hmem
  have htext := String.ofList_inj.mp (String.toByteArray_inj.mp (hsha h))
  have hlength := @length_filter_lt lib entry "sha256" hmem
  rw [← htext] at hlength
  exact Nat.lt_irrefl _ hlength

/-! ## The whole entry -/

theorem lookup_unsealed_digest : Dict.lookup (unsealed point source asOf fields reason) "sha256" =
    Dict.lookup (imageMembers point fields []) "sha256" := by
  have hbase : Dict.lookup (base point source asOf) "sha256" = none := by
    simp [base, Dict.lookup_cons]
  rw [lookup_unsealed, own_no_digest, hbase]
  simp

theorem exists_of_lookup {key : String} {v : Json}
    (h : Dict.lookup (imageMembers point fields []) key = some v) :
    ∃ m ∈ fields, point.cut m.1 = key := by
  by_contra hno
  push Not at hno
  rw [lookup_imageMembers_other hno] at h
  simp at h

theorem lookup_fields_none {key : String} (h : ∀ m ∈ fields, point.cut m.1 ≠ key) :
    Dict.lookup (imageMembers point fields []) key = none := by
  rw [lookup_imageMembers_other h]
  rfl

theorem copiedUnder_image (hapart : KeysApartMembers point fields) {m : String × Json}
    (hm : m ∈ fields) : CopiedUnder point m.1 m.2 (imageUnder point m.1 m.2) := by
  have hcopied := copied_image (.obj fields) (by simpa only [KeysApart] using hapart)
  simp only [image, Copied] at hcopied
  obtain ⟨walked, hwalked, hmembers⟩ := hcopied
  obtain ⟨w, hlookup, hvalue⟩ := mem_copied hmembers m hm
  rw [Json.obj.injEq] at hwalked
  rw [← hwalked, lookup_imageMembers hapart [] m hm, Option.some.injEq] at hlookup
  rwa [hlookup]

theorem lookup_seal_field (hapart : KeysApartMembers point fields) {m : String × Json}
    (hm : m ∈ fields) (hdigest : point.cut m.1 ≠ "sha256") :
    Dict.lookup (point.seal lib source asOf fields reason) (point.cut m.1) =
      (Dict.lookup (own point source fields reason) (point.cut m.1)).or
        (some (imageUnder point m.1 m.2)) := by
  rw [lookup_seal, if_neg hdigest, lookup_unsealed, lookup_imageMembers hapart [] m hm,
    Option.some_or]

theorem filter_seal : (point.seal lib source asOf fields reason).filter (fun m => m.1 ≠ "sha256") =
    (unsealed point source asOf fields reason).filter fun m => m.1 ≠ "sha256" := by
  rw [seal_eq, filter_set]

theorem lookup_seal_base (h : Spreads point source asOf fields reason) {key : String} {v : Json}
    (hdigest : key ≠ "sha256") (hown : Dict.lookup (own point source fields reason) key = none)
    (hbase : Dict.lookup (base point source asOf) key = some v) :
    Dict.lookup (point.seal lib source asOf fields reason) key = some v := by
  rw [lookup_seal, if_neg hdigest, lookup_unsealed, hown, Option.none_or]
  cases hfield : Dict.lookup (imageMembers point fields []) key with
  | none => rw [hbase, Option.none_or]
  | some w =>
      obtain ⟨m, hm, rfl⟩ := exists_of_lookup hfield
      rw [lookup_imageMembers h.apart [] m hm] at hfield
      rw [← hfield, h.base_kept m hm v hbase, Option.some_or]

theorem base_source : Dict.lookup (base point source asOf) "source" =
    some (.obj (imageMembers point source [])) := by simp [base, Dict.lookup_cons]

theorem base_as_of : Dict.lookup (base point source asOf) "as_of" = some (.str asOf) := by
  simp [base, Dict.lookup_cons]

theorem base_reason : Dict.lookup (base point source asOf) "reason" = none := by
  simp [base, Dict.lookup_cons]

theorem base_keys {key : String} {v : Json}
    (h : Dict.lookup (base point source asOf) key = some v) : key = "source" ∨ key = "as_of" := by
  by_contra hne
  push Not at hne
  simp [base, Dict.lookup_cons, Ne.symm hne.1, Ne.symm hne.2] at h

theorem faithful_of_spreads (h : Spreads point source asOf fields reason) :
    Faithful point lib source asOf fields reason (point.seal lib source asOf fields reason) := by
  have hdigest := lookup_fields_none h.no_digest
  refine ⟨?_, lookup_seal_base h (by decide) own_source base_source,
    lookup_seal_base h (by decide) own_as_of base_as_of, ?_, ?_, copied_of_mem h.apart fun m hm => ?_⟩
  · rw [lookup_seal, if_pos rfl, filter_seal,
      digest_of_none (lookup_unsealed_digest.trans hdigest)]
  · rw [lookup_seal, if_neg (by decide), lookup_unsealed, own_reason, base_reason, Option.or_none]
    cases reason with
    | none => rw [lookup_fields_none (h.no_reason rfl)]; rfl
    | some text => rfl
  · rw [lookup_seal, if_neg (by decide), lookup_unsealed, own_label, Option.some_or]
  · rw [lookup_seal_field h.apart hm (h.no_digest m hm)]
    cases hown : Dict.lookup (own point source fields reason) (point.cut m.1) with
    | none => exact ⟨_, rfl, copiedUnder_image h.apart hm⟩
    | some v => exact ⟨v, rfl, h.own_kept m hm v hown⟩

theorem spreads_of_faithful (hsha : Function.Injective lib.sha256)
    (h : Faithful point lib source asOf fields reason
      (point.seal lib source asOf fields reason)) : Spreads point source asOf fields reason := by
  have hapart := apart_of_copiedMembers h.copied
  have hdigest : ∀ m ∈ fields, point.cut m.1 ≠ "sha256" := by
    intro m hm hkey
    have hsealed := h.digest
    rw [lookup_seal, if_pos rfl, filter_seal, Option.some.injEq, Json.str.injEq] at hsealed
    have hnone := none_of_digest hsha hsealed
    rw [lookup_unsealed_digest, ← hkey, lookup_imageMembers hapart [] m hm] at hnone
    simp at hnone
  refine ⟨hapart, hdigest, fun hreason m hm hkey => ?_, fun m hm v hbase => ?_,
    fun m hm v hown => ?_⟩
  · have hwhy := h.why
    rw [← hkey, lookup_seal_field hapart hm (hdigest m hm), hkey, own_reason, hreason] at hwhy
    simp at hwhy
  · have hown : Dict.lookup (own point source fields reason) (point.cut m.1) = none := by
      rcases base_keys hbase with hkey | hkey
      · rw [hkey, own_source]
      · rw [hkey, own_as_of]
    have hfield : Dict.lookup (point.seal lib source asOf fields reason) (point.cut m.1) =
        some (imageUnder point m.1 m.2) := by
      rw [lookup_seal_field hapart hm (hdigest m hm), hown, Option.none_or]
    have hkept : Dict.lookup (point.seal lib source asOf fields reason) (point.cut m.1) =
        some v := by
      rcases base_keys hbase with hkey | hkey
      · rw [hkey, base_source] at hbase
        rw [hkey, h.walked, hbase]
      · rw [hkey, base_as_of] at hbase
        rw [hkey, h.as_of, hbase]
    exact Option.some.inj (hfield.symm.trans hkept)
  · obtain ⟨w, hlookup, hcopied⟩ := mem_copied h.copied m hm
    rw [lookup_seal_field hapart hm (hdigest m hm), hown, Option.some_or,
      Option.some.injEq] at hlookup
    rwa [hlookup]

/-- A sealed entry says what its source said exactly when no two keys of a map come out as one, no
field comes out as the digest, none as a reason that was not given, and a field that comes out as
another member of the writer carries what the writer puts there. -/
theorem sealed_iff (hsha : Function.Injective lib.sha256) (source : List (String × Json))
    (asOf : String) (fields : List (String × Json)) (reason : Option String) :
    Faithful point lib source asOf fields reason (point.seal lib source asOf fields reason) ↔
      Spreads point source asOf fields reason :=
  ⟨spreads_of_faithful hsha, faithful_of_spreads⟩

end

/-- A writer of the project at `/repo`, for texts that hold no secret. -/
def samplePoint : Chokepoint where
  redactSecrets text := text
  root := "/repo"
  pathText text := text

def sampleSource : List (String × Json) := [("path", .str "/repo/events.jsonl")]

theorem cut_sample : samplePoint.cut "passed" = "passed" := by decide

theorem sealed_iff_sample :
    Faithful samplePoint decimalStdlib sampleSource "2026-05-01" [("passed", .bool true)] none
      (samplePoint.seal decimalStdlib sampleSource "2026-05-01" [("passed", .bool true)] none) := by
  refine (sealed_iff decimalHash_injective _ _ _ _).mpr ⟨?_, ?_, ?_, ?_, ?_⟩
  · simp [KeysApartMembers, KeysApart]
  · simp [cut_sample]
  · simp [cut_sample]
  · simp [cut_sample, base, Dict.lookup_cons]
  · unfold own
    cases somethingChanged samplePoint sampleSource [("passed", .bool true)] <;>
      by_cases hcut : cutTexts samplePoint sampleSource [("passed", .bool true)] = [] <;>
      simp [hcut, cut_sample, Dict.lookup_cons]

/-- A row with a field of the name takes the place of where the entry comes from. -/
theorem source_overwritten :
    Dict.lookup (samplePoint.seal decimalStdlib sampleSource "2026-05-01" [("source", .null)] none)
        "source" = some .null ∧
      ¬ Faithful samplePoint decimalStdlib sampleSource "2026-05-01" [("source", .null)] none
        (samplePoint.seal decimalStdlib sampleSource "2026-05-01" [("source", .null)] none) := by
  have hcut : samplePoint.cut "source" = "source" := by decide
  have hsource : Dict.lookup (samplePoint.seal decimalStdlib sampleSource "2026-05-01"
      [("source", .null)] none) "source" = some .null := by
    rw [lookup_seal, if_neg (by decide), lookup_unsealed, own_source]
    simp [imageMembers, Chokepoint.placeholderFor, image, hcut]
  refine ⟨hsource, fun h => ?_⟩
  rw [h.walked] at hsource
  simp at hsource

end TrwMcp.EvidencePack
