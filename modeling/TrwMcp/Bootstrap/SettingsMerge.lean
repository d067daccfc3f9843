import TrwMcp.Bootstrap.Settings
import TrwMcp.Intent.LedgerRuns

/-!
# What merging the settings keeps

* `gain_iff` — a merge keeps the value of an event exactly when it is a list, or what the bundle has.
* `again_iff` — merging again changes an event just where an entry taken over has a legacy timeout
  that is not the one the bundle gives its command last.
* `merge_additive_iff` — the whole document.
-/

namespace TrwMcp.Bootstrap

open Handoff Intent Lib

/-- No hook file was kept. -/
def noneKept : String → Bool := fun _ => false

section

variable {lib : Stdlib}

/-! ## Identities and timeouts -/

theorem set_self {d : Dict String Json} {k : String} {v : Json} (h : Dict.lookup d k = some v) :
    Dict.set d k v = d := by
  induction d with
  | nil => simp at h
  | cons m d ih =>
      obtain ⟨l, w⟩ := m
      rw [Dict.lookup_cons] at h
      rw [Dict.set]
      split at h
      · next heq => rw [if_pos heq, Option.some.inj h]
      · next hne => rw [if_neg hne, ih h]

theorem map_self_iff {α : Type} {f : α → α} {l : List α} : l.map f = l ↔ ∀ a ∈ l, f a = a := by
  have hmap := List.map_inj_left (l := l) (f := f) (g := id)
  rwa [List.map_id] at hmap

variable (lib) in
theorem retimeHook_cases (timeouts : Dict String Json) (hook : Json) :
    retimeHook lib timeouts noneKept hook = hook ∨
      ∃ ms timeout bundled, hook = .obj ms ∧ intValue (Dict.lookup ms "timeout") = some timeout ∧
        legacyTimeout timeout = true ∧
        Dict.lookup timeouts (commandName lib ms) = some bundled ∧
        retimeHook lib timeouts noneKept hook = .obj (Dict.set ms "timeout" bundled) := by
  cases hook with
  | obj ms =>
      cases htimeout : intValue (Dict.lookup ms "timeout") with
      | none => exact .inl (by simp [retimeHook, htimeout])
      | some timeout =>
          cases hbundled : Dict.lookup timeouts (commandName lib ms) with
          | none => exact .inl (by simp [retimeHook, hbundled])
          | some bundled =>
              by_cases hlegacy : legacyTimeout timeout = true
              · exact .inr ⟨ms, timeout, bundled, rfl, htimeout, hlegacy, hbundled,
                  by simp [retimeHook, htimeout, hbundled, hlegacy, noneKept]⟩
              · exact .inl (by simp [retimeHook, htimeout, hbundled, hlegacy])
  | _ => exact .inl rfl

theorem retimeEntry_cases (timeouts : Dict String Json) (entry : Json) :
    (retimeEntry lib timeouts noneKept entry = entry ∧ entryHooks entry = []) ∨
      ∃ ms, entry = .obj ms ∧ Dict.lookup ms "hooks" = some (.arr (entryHooks entry)) ∧
        retimeEntry lib timeouts noneKept entry = .obj (Dict.set ms "hooks"
          (.arr ((entryHooks entry).map (retimeHook lib timeouts noneKept)))) := by
  cases entry with
  | obj ms =>
      cases hhooks : Dict.lookup ms "hooks" with
      | none => simp [retimeEntry, entryHooks, hhooks]
      | some hooks =>
          cases hooks with
          | arr hooks => exact .inr ⟨ms, rfl, by simp [entryHooks, hhooks],
              by simp [retimeEntry, entryHooks, hhooks]⟩
          | _ => simp [retimeEntry, entryHooks, hhooks]
  | _ => exact .inl ⟨rfl, rfl⟩

theorem isDict_retimeHook (timeouts : Dict String Json) (hook : Json) :
    isDict (retimeHook lib timeouts noneKept hook) = isDict hook := by
  rcases retimeHook_cases lib timeouts hook with h | ⟨ms, timeout, bundled, rfl, -, -, -, h⟩
  · rw [h]
  · rw [h]
    rfl

theorem hookCommand_retimeHook (timeouts : Dict String Json) (hook : Json) :
    hookCommand lib (retimeHook lib timeouts noneKept hook) = hookCommand lib hook := by
  rcases retimeHook_cases lib timeouts hook with h | ⟨ms, timeout, bundled, rfl, -, -, -, h⟩
  · rw [h]
  · rw [h]
    simp only [hookCommand]
    rw [Dict.lookup_set_ne _ (by decide)]

theorem entryHooks_retimeEntry (timeouts : Dict String Json) (entry : Json) :
    entryHooks (retimeEntry lib timeouts noneKept entry) =
      (entryHooks entry).map (retimeHook lib timeouts noneKept) := by
  rcases @retimeEntry_cases lib timeouts entry with ⟨h, hnil⟩ | ⟨ms, rfl, -, h⟩
  · rw [h, hnil]
    rfl
  · rw [h]
    simp [entryHooks]

theorem entryCommands_retimeEntry (timeouts : Dict String Json) (entry : Json) :
    entryCommands lib (retimeEntry lib timeouts noneKept entry) = entryCommands lib entry := by
  have hdict : (isDict ∘ retimeHook lib timeouts noneKept) = isDict :=
    funext (isDict_retimeHook timeouts)
  have hcommand : (hookCommand lib ∘ retimeHook lib timeouts noneKept) = hookCommand lib :=
    funext (hookCommand_retimeHook timeouts)
  rw [entryCommands, entryHooks_retimeEntry, List.filter_map, hdict, List.map_map, hcommand,
    entryCommands]

theorem retimeEntry_eq_self_iff (timeouts : Dict String Json) (entry : Json) :
    retimeEntry lib timeouts noneKept entry = entry ↔
      ∀ hook ∈ entryHooks entry, retimeHook lib timeouts noneKept hook = hook := by
  rcases @retimeEntry_cases lib timeouts entry with ⟨h, hnil⟩ | ⟨ms, hentry, hhooks, h⟩
  · simp [h, hnil]
  · constructor
    · intro heq hook hmem
      have hsame := @entryHooks_retimeEntry lib timeouts entry
      rw [heq] at hsame
      exact map_self_iff.mp hsame.symm hook hmem
    · intro hall
      rw [h, List.map_congr_left hall, List.map_id', set_self hhooks, hentry]

theorem identity_retimeEntry (timeouts : Dict String Json) (entry : Json) :
    hookEntryIdentity lib (retimeEntry lib timeouts noneKept entry) =
      hookEntryIdentity lib entry := by
  unfold hookEntryIdentity
  rw [entryCommands_retimeEntry]
  by_cases hcommands : entryCommands lib entry = []
  · have hself : retimeEntry lib timeouts noneKept entry = entry := by
      rw [retimeEntry_eq_self_iff]
      intro hook hmem
      rcases retimeHook_cases lib timeouts hook with h | ⟨ms, -, -, rfl, -⟩
      · exact h
      · simp only [entryCommands, List.map_eq_nil_iff, List.filter_eq_nil_iff] at hcommands
        exact absurd rfl (hcommands _ hmem)
    rw [hself]
  · simp [hcommands]

theorem map_identity_migrate (existingList bundledList : List Json) :
    (migrateLegacyTimeouts lib noneKept existingList bundledList).map (hookEntryIdentity lib) =
      existingList.map (hookEntryIdentity lib) := by
  rw [migrateLegacyTimeouts, List.map_map]
  exact List.map_congr_left fun entry _ => identity_retimeEntry _ entry

theorem retimeHook_idem (timeouts : Dict String Json) (hook : Json) :
    retimeHook lib timeouts noneKept (retimeHook lib timeouts noneKept hook) =
      retimeHook lib timeouts noneKept hook := by
  rcases retimeHook_cases lib timeouts hook with h | ⟨ms, timeout, bundled, -, -, -, hbundled, h⟩
  · rw [h, h]
  · rw [h]
    rcases retimeHook_cases lib timeouts (.obj (Dict.set ms "timeout" bundled)) with
      hagain | ⟨ns, -, again, hns, -, -, hfound, hagain⟩
    · exact hagain
    · have hcommand : commandName lib ns = commandName lib ms := by
        rw [← Json.obj.inj hns, commandName, Dict.lookup_set_ne _ (by decide), commandName]
      rw [hcommand, hbundled] at hfound
      rw [hagain, ← Json.obj.inj hns, ← Option.some.inj hfound, Dict.set_set]

theorem retimeEntry_idem (timeouts : Dict String Json) (entry : Json) :
    retimeEntry lib timeouts noneKept (retimeEntry lib timeouts noneKept entry) =
      retimeEntry lib timeouts noneKept entry := by
  rw [retimeEntry_eq_self_iff, entryHooks_retimeEntry]
  intro hook hmem
  obtain ⟨old, -, rfl⟩ := List.mem_map.mp hmem
  exact retimeHook_idem timeouts old

/-! ## The entries that are added -/

variable (lib) in
/-- The entries of the bundle that are not known, nor come after one of their identity. -/
@[grind =] def fresh : List Json → List String → List Json
  | [], _ => []
  | entry :: rest, known =>
      if hookEntryIdentity lib entry ∉ known then
        entry :: fresh rest (known ++ [hookEntryIdentity lib entry])
      else fresh rest known

theorem addMissing_eq (bundledList existingList : List Json) (known : List String) :
    addMissing lib bundledList existingList known = existingList ++ fresh lib bundledList known := by
  induction bundledList generalizing existingList known with
  | nil => simp [addMissing, fresh]
  | cons entry rest ih =>
      simp only [addMissing, fresh]
      split
      · rw [ih, List.append_assoc]
        rfl
      · exact ih existingList known

theorem mem_fresh {bundledList : List Json} {known : List String} {c : Json} :
    c ∈ fresh lib bundledList known ↔ ∃ before after, bundledList = before ++ c :: after ∧
      hookEntryIdentity lib c ∉ known ++ before.map (hookEntryIdentity lib) := by
  induction bundledList generalizing known with
  | nil => simp [fresh]
  | cons entry rest ih =>
      rw [fresh]
      constructor
      · intro hmem
        split at hmem
        · next hunknown =>
            rcases List.mem_cons.mp hmem with rfl | hmem
            · exact ⟨[], rest, rfl, by simpa using hunknown⟩
            · obtain ⟨before, after, rfl, hid⟩ := ih.mp hmem
              exact ⟨entry :: before, after, rfl, by simpa using hid⟩
        · next hknown =>
            obtain ⟨before, after, rfl, hid⟩ := ih.mp hmem
            refine ⟨entry :: before, after, rfl, ?_⟩
            have hne : hookEntryIdentity lib c ≠ hookEntryIdentity lib entry := fun heq =>
              hid (List.mem_append_left _ (heq ▸ not_not.mp hknown))
            simp only [List.mem_append, List.map_cons, List.mem_cons, not_or] at hid ⊢
            exact ⟨hid.1, hne, hid.2⟩
      · rintro ⟨before, after, heq, hid⟩
        rw [List.cons_eq_append_iff] at heq
        rcases heq with ⟨rfl, hcons⟩ | ⟨before', rfl, hrest⟩
        · obtain ⟨rfl, rfl⟩ := List.cons.inj hcons
          rw [if_pos (by simpa using hid)]
          exact List.mem_cons_self
        · simp only [List.mem_append, List.map_cons, List.mem_cons, not_or] at hid
          split
          · refine List.mem_cons_of_mem _ (ih.mpr ⟨before', after, hrest, ?_⟩)
            simp [hid]
          · exact ih.mpr ⟨before', after, hrest, by simp [hid]⟩

theorem identity_known {bundledList : List Json} {known : List String} {entry : Json}
    (h : entry ∈ bundledList) : hookEntryIdentity lib entry ∈
      known ++ (fresh lib bundledList known).map (hookEntryIdentity lib) := by
  induction bundledList generalizing known with
  | nil => simp at h
  | cons first rest ih =>
      rw [fresh]
      split
      · rcases List.mem_cons.mp h with rfl | h
        · simp
        · simpa using @ih (known ++ [hookEntryIdentity lib first]) h
      · next hknown =>
          rcases List.mem_cons.mp h with rfl | h
          · exact List.mem_append_left _ (not_not.mp hknown)
          · exact ih h

theorem fresh_known {bundledList : List Json} {known : List String}
    (h : ∀ entry ∈ bundledList, hookEntryIdentity lib entry ∈ known) :
    fresh lib bundledList known = [] := by
  induction bundledList with
  | nil => rfl
  | cons entry rest ih =>
      rw [fresh, if_neg (not_not.mpr (h entry (by simp))),
        ih fun e he => h e (List.mem_cons_of_mem _ he)]

/-! ## One event -/

/-- The value an event has after a merge. -/
def merged (lib : Stdlib) (old : Option Json) (value : Json) : Json :=
  mergeEvent lib noneKept old value

theorem merged_lists (xs ys : List Json) : merged lib (some (.arr xs)) (.arr ys) =
    .arr (migrateLegacyTimeouts lib noneKept xs ys ++
      fresh lib ys (xs.map (hookEntryIdentity lib))) := by
  rw [merged, mergeEvent, addMissing_eq, map_identity_migrate]

/-- An entry of the bundle that is taken over: of an event that is not there, or of an identity that
is not there yet. -/
def TakenOver (lib : Stdlib) (old : Option Json) (ys : List Json) (c : Json) : Prop :=
  ∃ before after, ys = before ++ c :: after ∧ ∀ xs, old = some (.arr xs) →
    hookEntryIdentity lib c ∉ (xs ++ before).map (hookEntryIdentity lib)

theorem mem_fresh_iff {xs ys : List Json} {c : Json} :
    c ∈ fresh lib ys (xs.map (hookEntryIdentity lib)) ↔ TakenOver lib (some (.arr xs)) ys c := by
  rw [mem_fresh]
  constructor
  · rintro ⟨before, after, heq, hid⟩
    refine ⟨before, after, heq, fun xs' hxs => ?_⟩
    rw [← Json.arr.inj (Option.some.inj hxs), List.map_append]
    exact hid
  · rintro ⟨before, after, heq, hid⟩
    refine ⟨before, after, heq, ?_⟩
    rw [← List.map_append]
    exact hid xs rfl

/-- The two entries have the same commands. -/
def SameCommands (lib : Stdlib) (e f : Json) : Prop :=
  ∀ command, command ∈ entryCommands lib e ↔ command ∈ entryCommands lib f

/-- `hook'` is `hook`, or has the timeout the bundle gives its command in the place of a legacy one. -/
def HookRetimed (lib : Stdlib) (ys : List Json) (hook hook' : Json) : Prop :=
  hook' = hook ∨ ∃ ms timeout bundled, hook = .obj ms ∧
    intValue (Dict.lookup ms "timeout") = some timeout ∧ legacyTimeout timeout = true ∧
    Dict.lookup (bundledTimeouts lib ys) (commandName lib ms) = some bundled ∧
    hook' = .obj (Dict.set ms "timeout" bundled)

def EntryRetimed (lib : Stdlib) (ys : List Json) (entry entry' : Json) : Prop :=
  entry' = entry ∨ ∃ ms hooks hooks', entry = .obj ms ∧
    Dict.lookup ms "hooks" = some (.arr hooks) ∧ List.Forall₂ (HookRetimed lib ys) hooks hooks' ∧
    entry' = .obj (Dict.set ms "hooks" (.arr hooks'))

/-- The user's value of an event after a merge: it is the one it was, or a list with the entries it
had, retimed, and others after them. -/
def EventGain (lib : Stdlib) (value : Option Json) (old new : Json) : Prop :=
  new = old ∨ ∃ xs ys xs' added, old = .arr xs ∧ value = some (.arr ys) ∧
    List.Forall₂ (EntryRetimed lib ys) xs xs' ∧ new = .arr (xs' ++ added)

theorem entry_retimed (ys : List Json) (entry : Json) :
    EntryRetimed lib ys entry (retimeEntry lib (bundledTimeouts lib ys) noneKept entry) := by
  rcases @retimeEntry_cases lib (bundledTimeouts lib ys) entry with ⟨h, -⟩ | ⟨ms, hentry, hhooks, h⟩
  · exact .inl h
  · refine .inr ⟨ms, _, _, hentry, hhooks, ?_, h⟩
    rw [List.forall₂_map_right_iff, List.forall₂_same]
    exact fun hook _ => retimeHook_cases lib (bundledTimeouts lib ys) hook

/-- What an event may be for a merge to keep it. -/
def Shape (old : Option Json) (value : Json) : Prop :=
  ∀ x, old = some x → (∃ xs, x = .arr xs) ∨ x = value

theorem gain_iff (old : Option Json) (value : Json) :
    (∀ x, old = some x → EventGain lib (some value) x (merged lib old value)) ↔ Shape old value := by
  constructor
  · intro h x hx
    rcases h x hx with hsame | ⟨xs, -, -, -, hxs, -⟩
    · cases x with
      | arr xs => exact .inl ⟨xs, rfl⟩
      | _ =>
          subst hx
          exact .inr (by simpa [merged, mergeEvent] using hsame.symm)
    · exact .inl ⟨xs, hxs⟩
  · rintro h x rfl
    rcases h x rfl with ⟨xs, rfl⟩ | rfl
    · cases value with
      | arr ys =>
          refine .inr ⟨xs, ys, migrateLegacyTimeouts lib noneKept xs ys, _, rfl, rfl, ?_,
            merged_lists xs ys⟩
          rw [migrateLegacyTimeouts, List.forall₂_map_right_iff, List.forall₂_same]
          exact fun entry _ => entry_retimed ys entry
      | _ => exact .inl rfl
    · cases x with
      | arr xs =>
          refine .inr ⟨xs, xs, migrateLegacyTimeouts lib noneKept xs xs, _, rfl, rfl, ?_,
            merged_lists xs xs⟩
          rw [migrateLegacyTimeouts, List.forall₂_map_right_iff, List.forall₂_same]
          exact fun entry _ => entry_retimed xs entry
      | _ => exact .inl rfl

/-- A hook whose timeout is no legacy one, or the one the bundle gives its command last. -/
def Settled (lib : Stdlib) (ys : List Json) (hook : Json) : Prop :=
  ∀ ms timeout bundled, hook = .obj ms → intValue (Dict.lookup ms "timeout") = some timeout →
    legacyTimeout timeout = true →
    Dict.lookup (bundledTimeouts lib ys) (commandName lib ms) = some bundled →
    Dict.lookup ms "timeout" = some bundled

theorem retimeHook_eq_self_iff (ys : List Json) (hook : Json) :
    retimeHook lib (bundledTimeouts lib ys) noneKept hook = hook ↔ Settled lib ys hook := by
  constructor
  · rintro h ms timeout bundled rfl htimeout hlegacy hbundled
    have hset : retimeHook lib (bundledTimeouts lib ys) noneKept (.obj ms) =
        .obj (Dict.set ms "timeout" bundled) := by
      simp [retimeHook, htimeout, hbundled, hlegacy, noneKept]
    rw [hset, Json.obj.injEq] at h
    rw [← h, Dict.lookup_set_self]
  · intro h
    rcases retimeHook_cases lib (bundledTimeouts lib ys) hook with
      hself | ⟨ms, timeout, bundled, rfl, htimeout, hlegacy, hbundled, hset⟩
    · exact hself
    · rw [hset, set_self (h ms timeout bundled rfl htimeout hlegacy hbundled)]

theorem migrate_eq_self_iff (xs ys : List Json) :
    migrateLegacyTimeouts lib noneKept xs ys = xs ↔
      ∀ c ∈ xs, ∀ hook ∈ entryHooks c, Settled lib ys hook := by
  rw [migrateLegacyTimeouts, map_self_iff]
  simp only [retimeEntry_eq_self_iff, retimeHook_eq_self_iff]

/-- Merging again changes an event just where an entry taken over has a legacy timeout that is not
the one the bundle gives its command last. -/
theorem again_iff {old : Option Json} {value : Json} (hshape : Shape old value) :
    merged lib (some (merged lib old value)) value = merged lib old value ↔
      ∀ ys, value = .arr ys → ∀ c, TakenOver lib old ys c →
        ∀ hook ∈ entryHooks c, Settled lib ys hook := by
  -- an event the user has no list of is the bundle's value after the first merge
  have hreplaced : (∀ xs, old ≠ some (.arr xs)) → merged lib old value = value → (
      merged lib (some (merged lib old value)) value = merged lib old value ↔
        ∀ ys, value = .arr ys → ∀ c, TakenOver lib old ys c →
          ∀ hook ∈ entryHooks c, Settled lib ys hook) := by
    intro hold hmerged
    rw [hmerged]
    cases value with
    | arr ys =>
        have hnone : fresh lib ys (ys.map (hookEntryIdentity lib)) = [] :=
          fresh_known fun entry he => List.mem_map_of_mem he
        rw [merged_lists, hnone, List.append_nil, Json.arr.injEq, migrate_eq_self_iff]
        constructor
        · rintro h ys' hys c ⟨before, after, rfl, -⟩
          rw [Json.arr.injEq] at hys
          subst hys
          exact h c (by simp)
        · intro h c hc
          obtain ⟨before, after, heq⟩ := List.append_of_mem hc
          exact h ys rfl c ⟨before, after, heq, fun xs hxs => absurd hxs (hold xs)⟩
    | _ => simp [merged, mergeEvent]
  cases old with
  | none => exact hreplaced (by simp) rfl
  | some x =>
      cases x with
      | arr xs =>
          cases value with
          | arr ys =>
              rw [merged_lists, merged_lists]
              have hnone : fresh lib ys ((migrateLegacyTimeouts lib noneKept xs ys ++
                  fresh lib ys (xs.map (hookEntryIdentity lib))).map
                    (hookEntryIdentity lib)) = [] := by
                refine fresh_known fun entry he => ?_
                rw [List.map_append, map_identity_migrate]
                exact identity_known he
              have hidem : migrateLegacyTimeouts lib noneKept
                  (migrateLegacyTimeouts lib noneKept xs ys) ys =
                    migrateLegacyTimeouts lib noneKept xs ys := by
                simp only [migrateLegacyTimeouts, List.map_map]
                exact List.map_congr_left fun entry _ => retimeEntry_idem _ entry
              have happend : migrateLegacyTimeouts lib noneKept
                  (migrateLegacyTimeouts lib noneKept xs ys ++
                    fresh lib ys (xs.map (hookEntryIdentity lib))) ys =
                  migrateLegacyTimeouts lib noneKept xs ys ++ migrateLegacyTimeouts lib noneKept
                    (fresh lib ys (xs.map (hookEntryIdentity lib))) ys := by
                conv_rhs => rw [← hidem]
                exact List.map_append
              rw [hnone, List.append_nil, happend, Json.arr.injEq, List.append_right_inj,
                migrate_eq_self_iff]
              constructor
              · rintro h ys' hys c hc
                rw [Json.arr.injEq] at hys
                subst hys
                exact h c (mem_fresh_iff.mpr hc)
              · exact fun h c hc => h ys rfl c (mem_fresh_iff.mp hc)
          | _ => simp [merged, mergeEvent]
      | _ => exact hreplaced (by simp) (by simp [merged, mergeEvent])

/-! ## The document -/

theorem lookup_mergeHooks {bundledHooks : Dict String Json}
    (hn : (bundledHooks.map (·.1)).Nodup) (hooks : Dict String Json) (event : String) :
    Dict.lookup (mergeHooks lib noneKept hooks bundledHooks) event =
      match Dict.lookup bundledHooks event with
      | some value => some (merged lib (Dict.lookup hooks event) value)
      | none => Dict.lookup hooks event := by
  induction bundledHooks generalizing hooks with
  | nil => rfl
  | cons m rest ih =>
      obtain ⟨k, v⟩ := m
      rw [List.map_cons, List.nodup_cons] at hn
      rw [mergeHooks, List.foldl_cons]
      refine (ih hn.2 _).trans ?_
      rw [Dict.lookup_cons]
      by_cases hk : k = event
      · subst hk
        have hrest : Dict.lookup rest k = none := Dict.lookup_eq_none_iff.mpr hn.1
        rw [hrest, if_pos rfl, Dict.lookup_set_self]
        rfl
      · rw [if_neg hk, Dict.lookup_set_ne _ (Ne.symm hk)]

theorem mergeHooks_eq_self {bundledHooks hooks : Dict String Json}
    (h : ∀ m ∈ bundledHooks,
      Dict.lookup hooks m.1 = some (merged lib (Dict.lookup hooks m.1) m.2)) :
    mergeHooks lib noneKept hooks bundledHooks = hooks := by
  induction bundledHooks with
  | nil => rfl
  | cons m rest ih =>
      rw [mergeHooks, List.foldl_cons, set_self]
      · exact ih fun n hn => h n (List.mem_cons_of_mem _ hn)
      · exact h m (by simp)

theorem mergeHooks_again_iff {bundledHooks : Dict String Json}
    (hn : (bundledHooks.map (·.1)).Nodup) (hooks : Dict String Json) :
    mergeHooks lib noneKept (mergeHooks lib noneKept hooks bundledHooks) bundledHooks =
        mergeHooks lib noneKept hooks bundledHooks ↔
      ∀ event value, Dict.lookup bundledHooks event = some value →
        merged lib (some (merged lib (Dict.lookup hooks event) value)) value =
          merged lib (Dict.lookup hooks event) value := by
  constructor
  · intro h event value hvalue
    have hlookup := congrArg (fun d => Dict.lookup d event) h
    simp only [lookup_mergeHooks hn, hvalue, Option.some.injEq] at hlookup
    exact hlookup
  · intro h
    refine mergeHooks_eq_self fun m hm => ?_
    have hvalue : Dict.lookup bundledHooks m.1 = some m.2 := Dict.lookup_of_mem hn hm
    simp only [lookup_mergeHooks hn, hvalue]
    rw [h m.1 m.2 hvalue]

theorem setDefault_of_some {env : Dict String Json} {k : String} {v w : Json}
    (h : Dict.lookup env k = some w) : (Dict.setDefault env k v).2 = env := by
  simp [Dict.setDefault, h]

theorem setDefault_of_none {env : Dict String Json} {k : String} {v : Json}
    (h : Dict.lookup env k = none) : (Dict.setDefault env k v).2 = env ++ [(k, v)] := by
  simp [Dict.setDefault, h]

theorem mergeEnv_eq (env bundledEnv : Dict String Json) :
    ∃ added, mergeEnv env bundledEnv = env ++ added ∧
      (∀ m ∈ added, Dict.lookup env m.1 = none) ∧
      ∀ m ∈ bundledEnv, Dict.lookup (mergeEnv env bundledEnv) m.1 ≠ none := by
  induction bundledEnv generalizing env with
  | nil => exact ⟨[], by simp [mergeEnv]⟩
  | cons m rest ih =>
      obtain ⟨k, v⟩ := m
      have hstep : mergeEnv env ((k, v) :: rest) =
          mergeEnv (Dict.setDefault env k v).2 rest := rfl
      rw [hstep]
      cases hk : Dict.lookup env k with
      | some w =>
          rw [setDefault_of_some hk]
          obtain ⟨added, heq, hnew, hall⟩ := ih env
          refine ⟨added, heq, hnew, fun n hn => ?_⟩
          rcases List.mem_cons.mp hn with rfl | hn
          · simp [heq, Dict.lookup_append, hk]
          · exact hall n hn
      | none =>
          rw [setDefault_of_none hk]
          obtain ⟨added, heq, hnew, hall⟩ := ih (env ++ [(k, v)])
          refine ⟨(k, v) :: added, by simp [heq], fun n hn => ?_, fun n hn => ?_⟩
          · rcases List.mem_cons.mp hn with rfl | hn
            · exact hk
            · have hnone := hnew n hn
              rw [Dict.lookup_append, Option.or_eq_none_iff] at hnone
              exact hnone.1
          · rcases List.mem_cons.mp hn with rfl | hn
            · simp [heq, Dict.lookup_append, Dict.lookup_cons]
            · exact hall n hn

theorem mergeEnv_again (env bundledEnv : Dict String Json) :
    mergeEnv (mergeEnv env bundledEnv) bundledEnv = mergeEnv env bundledEnv := by
  have hself : ∀ (old new : Dict String Json), (∀ m ∈ new, Dict.lookup old m.1 ≠ none) →
      mergeEnv old new = old := by
    intro old new h
    induction new with
    | nil => rfl
    | cons m rest ih =>
        obtain ⟨w, hw⟩ := Option.ne_none_iff_exists'.mp (h m (by simp))
        rw [mergeEnv, List.foldl_cons, setDefault_of_some hw]
        exact ih fun n hn => h n (List.mem_cons_of_mem _ hn)
  obtain ⟨-, -, -, hall⟩ := mergeEnv_eq env bundledEnv
  exact hself _ _ hall

variable {key : String} {merge : Dict String Json → Dict String Json → Dict String Json}
  {existing bundled : Dict String Json}

theorem lookup_mergePart_ne {k : String} (h : k ≠ key) :
    Dict.lookup (mergePart key merge existing bundled) k = Dict.lookup existing k := by
  unfold mergePart
  split
  · exact Dict.lookup_set_ne _ h _
  · rfl

theorem lookup_mergePart {old new : Dict String Json} (hold : subObject existing key = some old)
    (hnew : subObject bundled key = some new) :
    Dict.lookup (mergePart key merge existing bundled) key = some (.obj (merge old new)) := by
  simp [mergePart, hold, hnew]

theorem mergePart_of_not (h : ∀ old new, subObject existing key = some old →
    subObject bundled key ≠ some new) : mergePart key merge existing bundled = existing := by
  unfold mergePart
  split
  · next old new hold hnew => exact absurd hnew (h old new hold)
  · rfl

theorem subObject_congr {document document' : Dict String Json}
    (h : Dict.lookup document key = Dict.lookup document' key) :
    subObject document key = subObject document' key := by
  rw [subObject, h, subObject]

theorem subObject_of_lookup {document ms : Dict String Json}
    (h : Dict.lookup document key = some (.obj ms)) : subObject document key = some ms := by
  simp [subObject, h]

theorem lookup_of_subObject {document ms : Dict String Json} {v : Json}
    (h : subObject document key = some ms) (hv : Dict.lookup document key = some v) :
    v = .obj ms := by
  simp only [subObject, hv, Option.getD_some] at h
  cases v <;> simp_all

theorem mergePart_eq_self_iff : mergePart key merge existing bundled = existing ↔
    ∀ old new, subObject existing key = some old → subObject bundled key = some new →
      Dict.lookup existing key = some (.obj (merge old new)) := by
  constructor
  · intro h old new hold hnew
    rw [← lookup_mergePart hold hnew, h]
  · intro h
    unfold mergePart
    split
    · next old new hold hnew => exact set_self (h old new hold hnew)
    · rfl

theorem lookup_settings_hooks {old new : Dict String Json}
    (hold : subObject existing "hooks" = some old) (hnew : subObject bundled "hooks" = some new) :
    Dict.lookup (mergeSettings lib noneKept existing bundled) "hooks" =
      some (.obj (mergeHooks lib noneKept old new)) := by
  have hhooks : subObject (mergePart "env" mergeEnv existing bundled) "hooks" =
      subObject existing "hooks" := subObject_congr (lookup_mergePart_ne (by decide))
  exact lookup_mergePart (hhooks.trans hold) hnew

theorem mergeSettings_again_iff :
    mergeSettings lib noneKept (mergeSettings lib noneKept existing bundled) bundled =
        mergeSettings lib noneKept existing bundled ↔
      ∀ old new, subObject existing "hooks" = some old → subObject bundled "hooks" = some new →
        mergeHooks lib noneKept (mergeHooks lib noneKept old new) new =
          mergeHooks lib noneKept old new := by
  have henv : mergePart "env" mergeEnv (mergeSettings lib noneKept existing bundled) bundled =
      mergeSettings lib noneKept existing bundled := by
    have hkept : Dict.lookup (mergeSettings lib noneKept existing bundled) "env" =
        Dict.lookup (mergePart "env" mergeEnv existing bundled) "env" :=
      lookup_mergePart_ne (by decide)
    rw [mergePart_eq_self_iff]
    intro old new hold hnew
    rw [subObject_congr hkept] at hold
    rw [hkept]
    cases hboth : subObject existing "env" with
    | none =>
        rw [mergePart_of_not (by simp [hboth]), hboth] at hold
        simp at hold
    | some env =>
        rw [subObject_of_lookup (lookup_mergePart hboth hnew), Option.some.injEq] at hold
        rw [lookup_mergePart hboth hnew, ← hold, mergeEnv_again]
  have hhooks : subObject (mergePart "env" mergeEnv existing bundled) "hooks" =
      subObject existing "hooks" := subObject_congr (lookup_mergePart_ne (by decide))
  have hagain : mergeSettings lib noneKept (mergeSettings lib noneKept existing bundled) bundled =
      mergePart "hooks" (mergeHooks lib noneKept) (mergeSettings lib noneKept existing bundled)
        bundled := by
    rw [mergeSettings, henv]
  rw [hagain, mergePart_eq_self_iff]
  constructor
  · intro h old new hold hnew
    have hlookup := @lookup_settings_hooks lib _ _ _ _ hold hnew
    have hself := h _ new (subObject_of_lookup hlookup) hnew
    exact (Json.obj.inj (Option.some.inj (hlookup.symm.trans hself))).symm
  · intro h old new hold hnew
    cases hboth : subObject existing "hooks" with
    | none =>
        rw [mergeSettings, mergePart_of_not (by simp [hhooks, hboth]), hhooks, hboth] at hold
        simp at hold
    | some hooks =>
        have hlookup := @lookup_settings_hooks lib _ _ _ _ hboth hnew
        have hold' := subObject_of_lookup hlookup
        rw [hold', Option.some.injEq] at hold
        rw [hlookup, ← hold, h hooks new hboth hnew]

/-- An object that has its members and others after them. -/
def Gains (v w : Json) : Prop :=
  w = v ∨ ∃ ms added, v = .obj ms ∧ w = .obj (ms ++ added) ∧
    ∀ m ∈ added, Dict.lookup ms m.1 = none

/-- What the bundle has for an event. -/
def bundledEvent (bundled : Dict String Json) (event : String) : Option Json :=
  (subObject bundled "hooks").bind fun hooks => Dict.lookup hooks event

theorem bundledEvent_eq {new : Dict String Json} (hnew : subObject bundled "hooks" = some new)
    (event : String) : bundledEvent bundled event = Dict.lookup new event := by
  rw [bundledEvent, hnew, Option.bind_some]

/-- What a merge is to make of the user's settings. -/
structure Additive (lib : Stdlib) (existing bundled result : Dict String Json) : Prop where
  others : ∀ k v, Dict.lookup existing k = some v → k ≠ "env" → k ≠ "hooks" →
    Dict.lookup result k = some v
  env : ∀ v, Dict.lookup existing "env" = some v → ∃ w, Dict.lookup result "env" = some w ∧
    Gains v w
  hooks : ∀ v, Dict.lookup existing "hooks" = some v → ∃ w, Dict.lookup result "hooks" = some w ∧
    (w = v ∨ ∃ old hooks, v = .obj old ∧ w = .obj hooks ∧
      ∀ event x, Dict.lookup old event = some x → ∃ y, Dict.lookup hooks event = some y ∧
        EventGain lib (bundledEvent bundled event) x y)
  entries : ∀ old event xs ys, subObject existing "hooks" = some old →
    Dict.lookup old event = some (.arr xs) → bundledEvent bundled event = some (.arr ys) →
    ∀ e ∈ ys, ∃ hooks zs, Dict.lookup result "hooks" = some (.obj hooks) ∧
      Dict.lookup hooks event = some (.arr zs) ∧ ∃ c ∈ zs, SameCommands lib c e
  again : mergeSettings lib noneKept result bundled = result

/-- What the two documents are to be for that: for every event both may have,
* the user's value is a list, or what the bundle has;
* an entry of the bundle that is known by its identity has the commands of an entry that is there;
* no entry that is taken over has a legacy timeout another one of its command replaces. -/
structure Mergeable (lib : Stdlib) (existing bundled : Dict String Json) : Prop where
  shape : ∀ old event value, subObject existing "hooks" = some old →
    bundledEvent bundled event = some value → Shape (Dict.lookup old event) value
  known : ∀ old event xs ys, subObject existing "hooks" = some old →
    Dict.lookup old event = some (.arr xs) → bundledEvent bundled event = some (.arr ys) →
    ∀ e ∈ ys, (∃ c ∈ xs, SameCommands lib c e) ∨
      ∃ c, TakenOver lib (some (.arr xs)) ys c ∧ SameCommands lib c e
  settled : ∀ old event ys, subObject existing "hooks" = some old →
    bundledEvent bundled event = some (.arr ys) → ∀ c, TakenOver lib (Dict.lookup old event) ys c →
    ∀ hook ∈ entryHooks c, Settled lib ys hook

theorem sameCommands_retimed {ys : List Json} {c e : Json} :
    SameCommands lib (retimeEntry lib (bundledTimeouts lib ys) noneKept c) e ↔
      SameCommands lib c e := by
  unfold SameCommands
  rw [entryCommands_retimeEntry]

theorem exists_merged_iff {xs ys : List Json} {e : Json} :
    (∃ c ∈ migrateLegacyTimeouts lib noneKept xs ys ++
        fresh lib ys (xs.map (hookEntryIdentity lib)), SameCommands lib c e) ↔
      (∃ c ∈ xs, SameCommands lib c e) ∨
        ∃ c, TakenOver lib (some (.arr xs)) ys c ∧ SameCommands lib c e := by
  constructor
  · rintro ⟨c, hc, hsame⟩
    rcases List.mem_append.mp hc with hc | hc
    · obtain ⟨d, hd, rfl⟩ := List.mem_map.mp hc
      exact .inl ⟨d, hd, sameCommands_retimed.mp hsame⟩
    · exact .inr ⟨c, mem_fresh_iff.mp hc, hsame⟩
  · rintro (⟨c, hc, hsame⟩ | ⟨c, hc, hsame⟩)
    · exact ⟨_, List.mem_append_left _ (List.mem_map_of_mem hc), sameCommands_retimed.mpr hsame⟩
    · exact ⟨c, List.mem_append_right _ (mem_fresh_iff.mpr hc), hsame⟩

theorem lookup_settings_event {old new : Dict String Json} {event : String} {value : Json}
    (hn : (new.map (·.1)).Nodup) (hvalue : Dict.lookup new event = some value) :
    Dict.lookup (mergeHooks lib noneKept old new) event =
      some (merged lib (Dict.lookup old event) value) := by
  rw [lookup_mergeHooks hn, hvalue]

theorem exists_hooks_of_event {event : String} {value : Json}
    (h : bundledEvent bundled event = some value) :
    ∃ new, subObject bundled "hooks" = some new ∧ Dict.lookup new event = some value := by
  rw [bundledEvent, Option.bind_eq_some_iff] at h
  exact h

variable (hkeys : ∀ new, subObject bundled "hooks" = some new → (new.map (·.1)).Nodup)

include hkeys

theorem mergeable_of_additive
    (h : Additive lib existing bundled (mergeSettings lib noneKept existing bundled)) :
    Mergeable lib existing bundled := by
  have hshape : ∀ old event value, subObject existing "hooks" = some old →
      bundledEvent bundled event = some value → Shape (Dict.lookup old event) value := by
    intro old event value hold hvalue
    obtain ⟨new, hnew, hevent⟩ := exists_hooks_of_event hvalue
    rw [← @gain_iff lib]
    intro x hx
    rw [hx]
    cases hhooks : Dict.lookup existing "hooks" with
    | none =>
        rw [subObject, hhooks] at hold
        simp only [Option.getD_none, Option.some.injEq] at hold
        simp [← hold] at hx
    | some v =>
        obtain ⟨w, hw, hgain⟩ := h.hooks v hhooks
        have hv := lookup_of_subObject hold hhooks
        have hresult := @lookup_settings_event lib old new event value (hkeys new hnew) hevent
        rw [hx] at hresult
        rw [lookup_settings_hooks hold hnew, Option.some.injEq] at hw
        rcases hgain with hsame | ⟨old', hooks, hv', hw', hall⟩
        · rw [← hw, hv, Json.obj.injEq] at hsame
          rw [hsame, hx, Option.some.injEq] at hresult
          exact .inl hresult.symm
        · rw [hv, Json.obj.injEq] at hv'
          rw [← hw, Json.obj.injEq] at hw'
          subst hv' hw'
          obtain ⟨y, hy, hgained⟩ := hall event x hx
          rw [hresult, Option.some.injEq] at hy
          rw [hvalue] at hgained
          rwa [hy]
  refine ⟨hshape, ?_, ?_⟩
  · intro old event xs ys hold hxs hys e he
    obtain ⟨new, hnew, hevent⟩ := exists_hooks_of_event hys
    obtain ⟨hooks, zs, hhooks, hzs, hentry⟩ := h.entries old event xs ys hold hxs hys e he
    rw [lookup_settings_hooks hold hnew, Option.some.injEq, Json.obj.injEq] at hhooks
    rw [← hhooks, lookup_settings_event (hkeys new hnew) hevent, hxs, merged_lists,
      Option.some.injEq, Json.arr.injEq] at hzs
    rw [← hzs] at hentry
    exact exists_merged_iff.mp hentry
  · intro old event ys hold hys
    obtain ⟨new, hnew, hevent⟩ := exists_hooks_of_event hys
    have hagain := mergeSettings_again_iff.mp h.again old new hold hnew
    have hsame := (mergeHooks_again_iff (hkeys new hnew) old).mp hagain event _ hevent
    exact (again_iff (hshape old event _ hold hys)).mp hsame ys rfl

theorem additive_of_mergeable (h : Mergeable lib existing bundled) :
    Additive lib existing bundled (mergeSettings lib noneKept existing bundled) := by
  refine ⟨?_, ?_, ?_, ?_, ?_⟩
  · intro k v hv henv hhooks
    rw [mergeSettings, lookup_mergePart_ne hhooks, lookup_mergePart_ne henv, hv]
  · intro v hv
    rw [mergeSettings, lookup_mergePart_ne (by decide)]
    by_cases hboth : ∃ env new, subObject existing "env" = some env ∧
        subObject bundled "env" = some new
    · obtain ⟨env, new, henv, hnew⟩ := hboth
      obtain ⟨added, heq, hadded, -⟩ := mergeEnv_eq env new
      exact ⟨_, lookup_mergePart henv hnew, .inr ⟨env, added, lookup_of_subObject henv hv,
        by rw [heq], hadded⟩⟩
    · push Not at hboth
      rw [mergePart_of_not hboth]
      exact ⟨v, hv, .inl rfl⟩
  · intro v hv
    by_cases hboth : ∃ old new, subObject existing "hooks" = some old ∧
        subObject bundled "hooks" = some new
    · obtain ⟨old, new, hold, hnew⟩ := hboth
      refine ⟨_, lookup_settings_hooks hold hnew, .inr ⟨old, _, lookup_of_subObject hold hv, rfl,
        fun event x hx => ?_⟩⟩
      rw [lookup_mergeHooks (hkeys new hnew), bundledEvent_eq hnew]
      cases hevent : Dict.lookup new event with
      | none => exact ⟨x, hx, .inl rfl⟩
      | some value =>
          have hshape := h.shape old event value hold ((bundledEvent_eq hnew event).trans hevent)
          refine ⟨_, rfl, ?_⟩
          rw [hx] at hshape ⊢
          exact (gain_iff (some x) value).mpr hshape x rfl
    · push Not at hboth
      have hhooks : subObject (mergePart "env" mergeEnv existing bundled) "hooks" =
          subObject existing "hooks" := subObject_congr (lookup_mergePart_ne (by decide))
      rw [mergeSettings, mergePart_of_not (by rw [hhooks]; exact hboth),
        lookup_mergePart_ne (by decide)]
      exact ⟨v, hv, .inl rfl⟩
  · intro old event xs ys hold hxs hys e he
    obtain ⟨new, hnew, hevent⟩ := exists_hooks_of_event hys
    refine ⟨_, _, lookup_settings_hooks hold hnew, ?_,
      exists_merged_iff.mpr (h.known old event xs ys hold hxs hys e he)⟩
    rw [lookup_settings_event (hkeys new hnew) hevent, hxs, merged_lists]
  · rw [mergeSettings_again_iff]
    intro old new hold hnew
    rw [mergeHooks_again_iff (hkeys new hnew)]
    intro event value hvalue
    have hbundled := (bundledEvent_eq hnew event).trans hvalue
    rw [again_iff (h.shape old event value hold hbundled)]
    rintro ys rfl
    exact h.settled old event ys hold hbundled

/-- The merge of the settings keeps what the user had, brings in the bundle, and is settled after
one run, exactly when the two documents are as `Mergeable` says. -/
theorem merge_additive_iff :
    Additive lib existing bundled (mergeSettings lib noneKept existing bundled) ↔
      Mergeable lib existing bundled :=
  ⟨mergeable_of_additive hkeys, additive_of_mergeable hkeys⟩

end

/-- An event the user has set to `null` and the bundle has a list for. -/
def nulledSettings : Dict String Json := [("hooks", .obj [("Stop", .null)])]

def stopBundle : Dict String Json := [("hooks", .obj [("Stop", .arr [])])]

theorem merge_additive_iff_sample :
    Additive decimalStdlib [("model", .str "opus")] stopBundle
      (mergeSettings decimalStdlib noneKept [("model", .str "opus")] stopBundle) := by
  have hnone : ∀ old, subObject [("model", .str "opus")] "hooks" = some old → old = [] := by
    intro old hold
    simpa [subObject, Dict.lookup_cons, eq_comm] using hold
  refine (merge_additive_iff ?_).mpr ⟨?_, ?_, ?_⟩
  · simp [stopBundle, subObject, Dict.lookup_cons]
  · intro old event value hold _ x hx
    rw [hnone old hold] at hx
    simp at hx
  · intro old event xs ys hold hxs
    rw [hnone old hold] at hxs
    simp at hxs
  · intro old event ys hold hys c htaken
    obtain ⟨before, after, hlist, -⟩ := htaken
    have hempty : ys = [] := by
      have hlookup : Dict.lookup [("Stop", Json.arr [])] event = some (.arr ys) := hys
      rw [Dict.lookup_cons] at hlookup
      split at hlookup
      · exact (Json.arr.inj (Option.some.inj hlookup)).symm
      · simp at hlookup
    simp [hempty] at hlist

/-- Its value is replaced. -/
theorem null_replaced :
    ¬ Additive decimalStdlib nulledSettings stopBundle
      (mergeSettings decimalStdlib noneKept nulledSettings stopBundle) := by
  intro h
  obtain ⟨w, hw, hgain⟩ := h.hooks (.obj [("Stop", .null)]) rfl
  have hresult : w = .obj [("Stop", .arr [])] := (Option.some.inj hw).symm
  rw [hresult] at hgain
  rcases hgain with hsame | ⟨old, hooks, hold, hhooks, hall⟩
  · simp at hsame
  · rw [Json.obj.injEq] at hold hhooks
    subst hold hhooks
    obtain ⟨y, hy, hgained⟩ := hall "Stop" .null rfl
    have hy' : y = .arr [] := (Option.some.inj hy).symm
    rw [hy'] at hgained
    rcases hgained with hsame | ⟨xs, ys, xs', added, hxs, -⟩
    · simp at hsame
    · simp at hxs

end TrwMcp.Bootstrap
