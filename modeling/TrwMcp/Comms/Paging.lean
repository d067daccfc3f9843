import TrwMcp.Comms.Cursor

/-!
# Inbox pages

`readInbox` is a page of `fetch` or `status`: the cursor, one row more than the limit, and the
packer that adds entries while the canonical payload fits. What an item says is a parameter; that a
status row is viewed, which can fail, is not. `Paged` says once what a page holds and where it ends.
-/

namespace TrwMcp.Comms

open Handoff Lib

section

variable (lib : Stdlib)

/-! ## The packer -/

/-- `fits` -/
def fits (payload : Json) (maxBytes : Nat) : Mail Bool :=
  match canonicalText lib payload with
  | some text => pure (decide ((String.ofList text).utf8ByteSize ≤ maxBytes))
  | none => throw (.raised .valueError)

/-- A page with its items and its continuation. -/
def pagePayload (base : List (String × Json)) (key : String) (items : List Json)
    (next : Option String) : Json :=
  .obj (base ++ [(key, .arr items), ("next_cursor", (next.map Json.str).getD .null)])

variable (base : List (String × Json)) (key : String) (maxBytes : Nat)

/-- The loop of `pack`. An entry is built when it is reached. -/
@[grind =] def packFrom (items : List Json) (next : Option String) :
    List (Mail (Json × Option String)) → Mail (List Json × Option String)
  | [] => pure (items, next)
  | entry :: rest => do
      let (item, cursor) ← entry
      if ← fits lib (pagePayload base key (items ++ [item]) cursor) maxBytes then
        packFrom (items ++ [item]) cursor rest
      else if items.isEmpty then throw (.refused "response_too_small")
      else return (items, next)

/-- `pack` -/
def pack (entries : List (Mail (Json × Option String))) : Mail (List Json × Option String) := do
  if ← fits lib (pagePayload base key [] none) maxBytes then
    packFrom lib base key maxBytes [] none entries
  else throw (.refused "response_too_small")

end

/-! ## A page of the inbox -/

section

variable {T : Type}

/-- The rows with their rowids. -/
def numbered (db : Db T) : List (Row T × Nat) := db.admissions.zipIdx 1

/-- The rows an action lists for a caller: all it is a party of, or those it has still to fetch. -/
def selects (binding : CallerBinding) (action : InboxAction) (a : Admission T) : Bool :=
  a.groupId == binding.groupId &&
    if action = .fetch then a.recipientMemberId == binding.memberId && a.state == .pending
    else a.senderMemberId == binding.memberId || a.recipientMemberId == binding.memberId

/-- `_read_rows`, each row with its `append_id`. -/
def rowsAfter (db : Db T) (binding : CallerBinding) (action : InboxAction) (after limit : Nat) :
    List (Row T × Nat) :=
  ((numbered db).filter fun m => decide (after < m.2) && selects binding action m.1.2).take
    (limit + 1)

variable [Clock T] (lib : Stdlib) (item : Row T → Json)

/-- The view a status item shows, as far as it can fail; a fetch shows none. -/
def viewed (db : Db T) (action : InboxAction) (row : Row T) : Mail Unit :=
  if action = .status then ahrView lib db row.1 row.2.groupId else pure ()

/-- `_project` -/
def project (db : Db T) (action : InboxAction) (row : Row T) : Mail Json := do
  viewed lib db action row
  return item row

/-- The entries of a page: each item, and the cursor that continues after it. -/
def entriesOf (db : Db T) (action : InboxAction) (scope : String) (limit : Nat)
    (rows : List (Row T × Nat)) : List (Mail (Json × Option String)) :=
  (rows.take limit).zipIdx.map fun entry => do
    let shown ← project lib item db action entry.1.1
    return (shown, if entry.2 + 1 < rows.length then some (issue scope entry.1.2) else none)

/-- `{"status": "ok", "delivery": "pull_only"}` -/
def pageBase : List (String × Json) := [("status", .str "ok"), ("delivery", .str "pull_only")]

/-- What a page gives: its payload, the rows it holds and the mailbox it leaves. -/
structure Page (T : Type) where
  items : List Json
  next : Option String
  rows : List (Row T × Nat)
  left : Db T

/-- The rowids of a page. -/
def Page.ids (page : Page T) : List Nat := page.rows.map (·.2)

/-- `inbox_action` for `fetch` and `status`, from the scope on. -/
def readInbox (db : Db T) (binding : CallerBinding) (action : InboxAction) (cursor : Option String)
    (incarnation : Option String) (now : T) (limit maxBytes : Nat) : Mail (Page T) := do
  let scope := scopeOf lib binding action incarnation
  let after ← decodeAfter lib cursor scope
  let group ← groupRow db binding.groupId
  if action = .fetch ∧ maxBytes < 6 * group.bodyLimit + 4096 then
    throw (.refused "response_body_policy_incompatible")
  let rows := rowsAfter db binding action after limit
  let (items, next) ← pack lib pageBase "items" maxBytes
    (entriesOf lib item db action scope limit rows)
  let included := rows.take items.length
  let left := if action = .fetch then
    prepareFetch db (included.map (·.1)) now (incarnation.getD "None") else db
  return ⟨items, next, included, left⟩

end

/-! ## What can be written -/

section

variable {lib : Stdlib} {base : List (String × Json)} {key : String} {maxBytes : Nat}

theorem canonicalItems_isSome {xs : List Json} :
    (canonicalItems lib xs).isSome ↔ ∀ x ∈ xs, (canonicalText lib x).isSome := by
  induction xs with
  | nil => simp [canonicalItems]
  | cons x xs ih =>
      rw [List.forall_mem_cons, ← ih, canonicalItems]
      cases canonicalText lib x <;> cases canonicalItems lib xs <;> simp

theorem canonicalMembers_isSome {ms : List (String × Json)} :
    (canonicalMembers lib ms).isSome ↔ ∀ m ∈ ms, (canonicalText lib m.2).isSome := by
  induction ms with
  | nil => simp [canonicalMembers]
  | cons m ms ih =>
      rw [List.forall_mem_cons, ← ih, canonicalMembers]
      cases canonicalText lib m.2 <;> cases canonicalMembers lib ms <;> simp

theorem pagePayload_isSome {items : List Json} {next : Option String} :
    (canonicalText lib (pagePayload base key items next)).isSome ↔
      (∀ m ∈ base, (canonicalText lib m.2).isSome) ∧
        ∀ x ∈ items, (canonicalText lib x).isSome := by
  have hnext : (canonicalText lib ((next.map Json.str).getD .null)).isSome := by
    cases next <;> rfl
  have hobj : ∀ ms : List (String × Json), (canonicalText lib (.obj ms)).isSome ↔
      ∀ m ∈ ms, (canonicalText lib m.2).isSome := by
    intro ms
    rw [← canonicalMembers_isSome, canonicalText]
    cases canonicalMembers lib ms <;> rfl
  have harr : (canonicalText lib (.arr items)).isSome ↔
      ∀ x ∈ items, (canonicalText lib x).isSome := by
    rw [← canonicalItems_isSome, canonicalText]
    cases canonicalItems lib items <;> rfl
  rw [pagePayload, hobj, List.forall_mem_append, ← harr]
  simp [hnext]

theorem fits_ok {payload : Json} :
    (∃ fit, fits lib payload maxBytes = .ok fit) ↔ (canonicalText lib payload).isSome := by
  unfold fits
  cases canonicalText lib payload with
  | none => simp [throw, throwThe, MonadExceptOf.throw]
  | some text => simp [pure, Except.pure]

/-! ## Where the packer stops -/

/-- The packer keeps a prefix of the entries and the continuation of the last one it kept. It stops
short only after an entry, and builds one entry more then. -/
theorem packFrom_ok {entries : List (Mail (Json × Option String))} {items items' : List Json}
    {next next' : Option String}
    (h : packFrom lib base key maxBytes items next entries = .ok (items', next')) :
    ∃ kept, items' = items ++ kept ∧ kept.length ≤ entries.length ∧
      List.Forall₂ (fun shown entry => ∃ cursor, entry = .ok (shown, cursor)) kept
        (entries.take kept.length) ∧
      (∀ entry ∈ entries.take (kept.length + 1), ∃ built, entry = .ok built) ∧
      (kept = [] → next' = next ∧ (entries = [] ∨ items ≠ [])) ∧
      ∀ j, kept.length = j + 1 → ∃ shown, entries[j]? = some (.ok (shown, next')) := by
  induction entries generalizing items next with
  | nil =>
      cases h
      exact ⟨[], by simp, le_rfl, .nil, by simp, fun _ => ⟨rfl, .inl rfl⟩,
        fun j hj => absurd hj (by simp)⟩
  | cons entry entries ih =>
      simp only [packFrom, Except.bind_eq_ok] at h
      obtain ⟨⟨shown, cursor⟩, hentry, fit, _, h⟩ := h
      cases fit with
      | true =>
          obtain ⟨kept, rfl, hle, hitems, hbuilt, hnone, hlast⟩ := ih h
          refine ⟨shown :: kept, by simp, Nat.succ_le_succ hle, .cons ⟨cursor, hentry⟩ hitems, ?_,
            by simp, fun j hj => ?_⟩
          · intro e he
            rw [List.length_cons, List.take_succ_cons, List.mem_cons] at he
            rcases he with rfl | he
            · exact ⟨_, hentry⟩
            · exact hbuilt e he
          · obtain rfl : kept.length = j := by simpa using hj
            cases kept with
            | nil =>
                obtain ⟨rfl, _⟩ := hnone rfl
                exact ⟨shown, by simp [hentry]⟩
            | cons x kept =>
                obtain ⟨last, hentries⟩ := hlast kept.length rfl
                exact ⟨last, by simpa using hentries⟩
      | false =>
          simp only [Bool.false_eq_true, if_false] at h
          split at h
          · cases h
          · next hitems =>
              cases h
              refine ⟨[], by simp, Nat.zero_le _, .nil, ?_,
                fun _ => ⟨rfl, .inr (by simpa using hitems)⟩, fun j hj => absurd hj (by simp)⟩
              intro e he
              obtain rfl : e = entry := by simpa using he
              exact ⟨_, hentry⟩

theorem pack_ok {entries : List (Mail (Json × Option String))} {items : List Json}
    {next : Option String} (h : pack lib base key maxBytes entries = .ok (items, next)) :
    items.length ≤ entries.length ∧
      List.Forall₂ (fun shown entry => ∃ cursor, entry = .ok (shown, cursor)) items
        (entries.take items.length) ∧
      (∀ entry ∈ entries.take (items.length + 1), ∃ built, entry = .ok built) ∧
      (items = [] → next = none ∧ entries = []) ∧
      ∀ j, items.length = j + 1 → ∃ shown, entries[j]? = some (.ok (shown, next)) := by
  obtain ⟨fit, _, h⟩ := Except.bind_eq_ok.mp h
  cases fit with
  | false => cases h
  | true =>
      obtain ⟨kept, rfl, hle, hitems, hbuilt, hnone, hlast⟩ := packFrom_ok h
      exact ⟨hle, hitems, hbuilt, fun hkept => ⟨(hnone hkept).1,
        (hnone hkept).2.resolve_right (not_not.mpr rfl)⟩, hlast⟩

/-- An entry that is built, and fits a page of its own. -/
def FitsAlone (lib : Stdlib) (base : List (String × Json)) (key : String) (maxBytes : Nat)
    (entry : Mail (Json × Option String)) : Prop :=
  ∃ shown cursor, entry = .ok (shown, cursor) ∧
    fits lib (pagePayload base key [shown] cursor) maxBytes = .ok true

theorem FitsAlone.writes {shown : Json} {cursor : Option String}
    (h : fits lib (pagePayload base key [shown] cursor) maxBytes = .ok true) :
    (∀ m ∈ base, (canonicalText lib m.2).isSome) ∧ (canonicalText lib shown).isSome := by
  have := pagePayload_isSome.mp (fits_ok.mp ⟨true, h⟩)
  exact ⟨this.1, this.2 shown (by simp)⟩

theorem packFrom_succeeds {entries : List (Mail (Json × Option String))} {items : List Json}
    {next : Option String} (hitems : ∀ x ∈ items, (canonicalText lib x).isSome)
    (hfits : ∀ entry ∈ entries, FitsAlone lib base key maxBytes entry) :
    ∃ packed, packFrom lib base key maxBytes items next entries = .ok packed := by
  induction entries generalizing items next with
  | nil => exact ⟨_, rfl⟩
  | cons entry entries ih =>
      obtain ⟨shown, cursor, rfl, halone⟩ := hfits entry (by simp)
      obtain ⟨hbase, hshown⟩ := FitsAlone.writes halone
      have hmore : ∀ x ∈ items ++ [shown], (canonicalText lib x).isSome := by
        intro x hx
        rcases List.mem_append.mp hx with hx | hx
        · exact hitems x hx
        · obtain rfl := List.mem_singleton.mp hx
          exact hshown
      have hwrites : (canonicalText lib (pagePayload base key (items ++ [shown]) cursor)).isSome :=
        pagePayload_isSome.mpr ⟨hbase, hmore⟩
      obtain ⟨fit, hfit⟩ : ∃ fit, fits lib (pagePayload base key (items ++ [shown]) cursor)
          maxBytes = .ok fit := fits_ok.mpr hwrites
      obtain ⟨packed, hpacked⟩ : ∃ packed, packFrom lib base key maxBytes (items ++ [shown]) cursor
          entries = .ok packed := ih hmore fun e he => hfits e (List.mem_cons_of_mem _ he)
      cases fit with
      | true => exact ⟨packed, by simp [packFrom, hfit, hpacked, bind, Except.bind]⟩
      | false =>
          cases items with
          | nil =>
              rw [List.nil_append] at hfit
              rw [halone] at hfit
              cases hfit
          | cons x items =>
              rw [List.cons_append] at hfit
              exact ⟨(x :: items, next), by
                simp [packFrom, hfit, bind, Except.bind, pure, Except.pure]⟩

theorem pack_succeeds {entries : List (Mail (Json × Option String))}
    (hempty : fits lib (pagePayload base key [] none) maxBytes = .ok true)
    (hfits : ∀ entry ∈ entries, FitsAlone lib base key maxBytes entry) :
    ∃ packed, pack lib base key maxBytes entries = .ok packed := by
  obtain ⟨packed, hpacked⟩ : ∃ packed, packFrom lib base key maxBytes [] none entries =
      .ok packed := packFrom_succeeds (by simp) hfits
  exact ⟨packed, by simp [pack, hempty, hpacked, bind, Except.bind]⟩

end

/-! ## What a page holds -/

section

theorem take_succ_eq_filter {α : Type} {f : α → Nat} {xs : List α}
    (h : xs.Pairwise fun x y => f x < f y) {j : Nat} {x : α} (hx : xs[j]? = some x) :
    xs.take (j + 1) = xs.filter fun y => decide (f y ≤ f x) := by
  induction xs generalizing j with
  | nil => simp at hx
  | cons y ys ih =>
      obtain ⟨hy, hys⟩ := List.pairwise_cons.mp h
      cases j with
      | zero =>
          obtain rfl : y = x := by simpa using hx
          have hnone : ys.filter (fun z => decide (f z ≤ f y)) = [] := by
            rw [List.filter_eq_nil_iff]
            intro z hz
            simpa using hy z hz
          simp [hnone]
      | succ j =>
          have hmem : x ∈ ys := List.mem_of_getElem? (by simpa using hx)
          rw [List.take_succ_cons, ih hys (by simpa using hx), List.filter_cons_of_pos]
          simpa using (hy x hmem).le

variable {T : Type}

theorem mem_numbered {db : Db T} {m : Row T} {n : Nat} :
    (m, n) ∈ numbered db ↔ 1 ≤ n ∧ db.admissions[n - 1]? = some m := by
  unfold numbered
  rw [List.mem_zipIdx_iff_le_and_getElem?_sub]

theorem numbered_pairwise (db : Db T) : (numbered db).Pairwise fun m m' => m.2 < m'.2 := by
  have hids : ((numbered db).map (·.2)).Pairwise (· < ·) := by
    rw [numbered, List.zipIdx_map_snd]
    exact List.pairwise_lt_range' ..
  exact List.pairwise_map.mp hids

/-- The rowids a page ranges over: from where it starts to where it stops. -/
def Within (after : Nat) (stop : Option Nat) (n : Nat) : Prop :=
  after < n ∧ ∀ last ∈ stop, n ≤ last

instance (after : Nat) (stop : Option Nat) (n : Nat) : Decidable (Within after stop n) := by
  unfold Within
  infer_instance

variable [Clock T] {lib : Stdlib} {item : Row T → Json} {db : Db T} {binding : CallerBinding}
  {action : InboxAction} {cursor incarnation : Option String} {now : T} {limit maxBytes : Nat}
  {page : Page T}

/-- A page holds every row the action selects in its range; it either reaches the end, or stops at
one of its rows and continues from there. -/
structure Paged (lib : Stdlib) (item : Row T → Json) (db : Db T) (binding : CallerBinding)
    (action : InboxAction) (scope : String) (after : Nat) (stop : Option Nat) (page : Page T) :
    Prop where
  rows : page.rows =
    (numbered db).filter fun m => decide (Within after stop m.2) && selects binding action m.1.2
  items : page.items = page.rows.map fun m => item m.1
  next : page.next = stop.map (issue scope)
  stops : ∀ last ∈ stop, last ∈ page.ids

omit [Clock T] in
theorem shown_entries {rows : List (Row T × Nat)} {items : List Json} {k total start : Nat}
    {scope : String}
    (h : List.Forall₂ (fun shown entry => ∃ cursor, entry = Except.ok (shown, cursor)) items
      (((rows.zipIdx start).map fun entry => show Mail (Json × Option String) from do
        let shown ← project lib item db action entry.1.1
        return (shown, if entry.2 + 1 < total then some (issue scope entry.1.2) else none)).take
          k)) :
    items = (rows.take k).map fun m => item m.1 := by
  induction k generalizing rows items start with
  | zero =>
      cases h
      rfl
  | succ k ih =>
      cases rows with
      | nil =>
          cases h
          rfl
      | cons row rows =>
          rw [List.zipIdx_cons, List.map_cons, List.take_succ_cons] at h
          cases h with
          | cons hhead htail =>
              obtain ⟨cursor, hhead⟩ := hhead
              obtain ⟨shown, hproject, hshown⟩ := Except.bind_eq_ok.mp hhead
              cases hshown
              obtain ⟨_, _, hitem⟩ := Except.bind_eq_ok.mp hproject
              cases hitem
              rw [List.take_succ_cons, List.map_cons, ih htail]

omit [Clock T] in
theorem readInbox_ok (hlimit : 0 < limit)
    (h : readInbox lib item db binding action cursor incarnation now limit maxBytes = .ok page) :
    ∃ after stop, decodeAfter lib cursor (scopeOf lib binding action incarnation) = .ok after ∧
      Paged lib item db binding action (scopeOf lib binding action incarnation) after stop
        page := by
  simp only [readInbox, Except.bind_eq_ok, Except.pure_eq_ok, Except.throw_ne_ok, ite_eq_iff,
    false_and, and_false, exists_false, false_or] at h
  obtain ⟨after, hafter, group, _, _, ⟨items, next⟩, hpack, rfl⟩ := h
  obtain ⟨hle, hitems, _, hnone, hlast⟩ := pack_ok hpack
  set scope := scopeOf lib binding action incarnation with hscope
  set found := (numbered db).filter fun m =>
    decide (after < m.2) && selects binding action m.1.2 with hfound
  have hsorted : found.Pairwise fun m m' => m.2 < m'.2 := (numbered_pairwise db).filter _
  have hrows : rowsAfter db binding action after limit = found.take (limit + 1) := rfl
  rw [hrows] at hle hitems hnone hlast ⊢
  have hcount : items.length ≤ limit ∧ items.length ≤ found.length := by
    simp only [entriesOf, List.length_map, List.length_zipIdx, List.length_take] at hle
    omega
  have hkept : (found.take (limit + 1)).take items.length = found.take items.length := by
    rw [List.take_take, Nat.min_eq_left (by omega)]
  have hshown : items = (found.take items.length).map fun m => item m.1 := by
    have := shown_entries hitems
    rwa [List.take_take, List.take_take, Nat.min_eq_left (by omega : items.length ≤ limit),
      Nat.min_eq_left (by omega : items.length ≤ limit + 1)] at this
  rw [hkept]
  refine ⟨after, ?_⟩
  obtain hlen | ⟨j, hlen⟩ : items.length = 0 ∨ ∃ j, items.length = j + 1 := by
    cases items.length <;> simp
  · obtain ⟨rfl, hentries⟩ := hnone (List.length_eq_zero_iff.mp hlen)
    have hempty : found = [] := by
      simp only [entriesOf, List.map_eq_nil_iff, List.zipIdx_eq_nil_iff,
        List.take_eq_nil_iff] at hentries
      rcases hentries with h | h | h
      · omega
      · omega
      · exact h
    refine ⟨none, hafter, ?_, hshown, rfl, by simp⟩
    show found.take items.length = _
    rw [hempty, List.take_nil, ← hempty, hfound]
    simp [Within]
  · obtain ⟨shown, hentry⟩ := hlast j hlen
    have hj : j < found.length := by omega
    obtain ⟨last, hget⟩ : ∃ last, found[j]? = some last :=
      ⟨found[j], List.getElem?_eq_getElem hj⟩
    simp only [entriesOf, List.getElem?_map, List.getElem?_zipIdx, Option.map_eq_some_iff]
      at hentry
    obtain ⟨⟨row, index⟩, ⟨row', hrow', heq⟩, hok⟩ := hentry
    obtain ⟨rfl, rfl⟩ := Prod.mk.inj heq
    rw [List.take_take, List.getElem?_take_of_lt (by omega), hget] at hrow'
    obtain rfl := Option.some.inj hrow'
    obtain ⟨_, _, hnext⟩ := Except.bind_eq_ok.mp hok
    have hnext' := (Prod.mk.inj (Except.ok.inj hnext)).2
    simp only [List.length_take, Nat.zero_add] at hnext'
    by_cases hmore : j + 1 < found.length
    · rw [if_pos (by omega)] at hnext'
      refine ⟨some last.2, hafter, ?_, hshown, hnext'.symm, ?_⟩
      · show found.take items.length = _
        rw [hlen, take_succ_eq_filter hsorted hget, hfound, List.filter_filter]
        refine List.filter_congr fun m _ => ?_
        simp only [Within, Option.mem_some_iff, forall_eq', Bool.decide_and]
        cases decide (m.2 ≤ last.2) <;> simp
      · intro stop hstop
        obtain rfl := Option.mem_some_iff.mp hstop
        refine List.mem_map.mpr ⟨last, ?_, rfl⟩
        show last ∈ found.take items.length
        rw [hlen]
        exact List.mem_of_getElem? (i := j) (by rw [List.getElem?_take_of_lt (by omega), hget])
    · rw [if_neg (by omega)] at hnext'
      refine ⟨none, hafter, ?_, hshown, hnext'.symm, by simp⟩
      show found.take items.length = _
      rw [List.take_of_length_le (by omega), hfound]
      simp [Within]

/-! ## The page in the mailbox -/

theorem zipIdx_filter_lt {α : Type} (xs : List α) (k d : Nat) :
    ((xs.zipIdx (k + 1)).filter fun m => decide (k + d < m.2)) = (xs.zipIdx (k + 1)).drop d := by
  induction xs generalizing k d with
  | nil => simp
  | cons x xs ih =>
      cases d with
      | zero =>
          rw [List.drop_zero, List.filter_eq_self]
          intro m hm
          have := List.le_snd_of_mem_zipIdx hm
          simpa using this
      | succ d =>
          rw [List.zipIdx_cons, List.drop_succ_cons, List.filter_cons_of_neg (by simp),
            ← ih (k + 1) d]
          refine List.filter_congr fun m _ => ?_
          rw [show k + (d + 1) = k + 1 + d by omega]

omit [Clock T] in
theorem readRows_eq (after : Nat) :
    readRows db binding action after limit =
      (rowsAfter db binding action after limit).map (·.1) := by
  have hdrop := zipIdx_filter_lt db.admissions 0 after
  simp only [Nat.zero_add] at hdrop
  have hrows : (db.admissions.zipIdx 1).map (·.1) = db.admissions := List.zipIdx_map_fst ..
  rw [rowsAfter, List.map_take, ← List.filter_filter, numbered, List.filter_comm, hdrop]
  show ((db.admissions.drop after).filter fun m => selects binding action m.2).take (limit + 1) = _
  conv_lhs => rw [← hrows, ← List.map_drop, List.filter_map]
  rfl

/-- The call `readInbox` is the reading part of: its cursor as the position it decodes to, and as
much room as the page took. -/
def Page.args (lib : Stdlib) (action : InboxAction) (cursor : Option String) (scope : String)
    (page : Page T) : InboxArgs where
  action := action
  cursor := cursor.map fun text => (decodeAfter lib (some text) scope).toOption
  room := some page.rows.length

omit [Clock T] in
theorem cursorPosition_args {scope : String} {after : Nat}
    (h : decodeAfter lib cursor scope = .ok after) :
    cursorPosition (page.args lib action cursor scope).cursor = .ok after := by
  cases cursor with
  | none =>
      cases h
      rfl
  | some text =>
      simp only [Page.args, Option.map_some, h]
      rfl

omit [Clock T] in
theorem viewed_entries {rows : List (Row T × Nat)} {k total start : Nat} {scope : String}
    (h : ∀ entry ∈ (((rows.zipIdx start).map fun entry => show Mail (Json × Option String) from do
        let shown ← project lib item db action entry.1.1
        return (shown, if entry.2 + 1 < total then some (issue scope entry.1.2) else none)).take
          k), ∃ built, entry = .ok built) :
    ∀ m ∈ rows.take k, viewed lib db action m.1 = .ok () := by
  induction k generalizing rows start with
  | zero => simp
  | succ k ih =>
      cases rows with
      | nil => simp
      | cons row rows =>
          rw [List.zipIdx_cons, List.map_cons, List.take_succ_cons, List.forall_mem_cons] at h
          rw [List.take_succ_cons, List.forall_mem_cons]
          obtain ⟨⟨built, hbuilt⟩, hrest⟩ := h
          obtain ⟨shown, hproject, _⟩ := Except.bind_eq_ok.mp hbuilt
          obtain ⟨⟨⟩, hviewed, _⟩ := Except.bind_eq_ok.mp hproject
          exact ⟨hviewed, ih hrest⟩

theorem forM_ok {α : Type} {f : α → Mail Unit} {xs : List α} (h : ∀ x ∈ xs, f x = .ok ()) :
    xs.forM f = .ok () := by
  induction xs with
  | nil => rfl
  | cons x xs ih =>
      show (f x >>= fun _ => xs.forM f) = .ok ()
      rw [h x (by simp)]
      exact ih fun y hy => h y (List.mem_cons_of_mem _ hy)

omit [Clock T] in
theorem readPage_viewed {rows : List (Row T)} {n : Nat} {mine : String}
    (hviews : ∀ m ∈ rows.take (n + 1), viewed lib db action m = .ok ())
    (hzero : n = 0 → rows = []) :
    readPage lib db action rows mine now (some n) =
      .ok (if action = .fetch then prepareFetch db (rows.take n) now mine else db) := by
  have hempty : ¬(n = 0 ∧ !rows.isEmpty) := fun h => by simp [hzero h.1] at h
  have hforM : action = .status →
      ((rows.take (n + 1)).forM fun row => ahrView lib db row.1 row.2.groupId) = .ok () := by
    rintro rfl
    exact forM_ok fun m hm => hviews m hm
  unfold readPage
  by_cases hstatus : action = .status
  · simp only [hstatus, if_true, hforM hstatus, if_neg hempty, reduceCtorEq, if_false]
    rfl
  · simp only [hstatus, if_false, if_neg hempty]
    by_cases hfetch : action = .fetch
    · simp only [hfetch, if_true]
      rfl
    · simp only [hfetch, if_false]
      rfl

theorem inboxAction_readInbox {env : Surroundings} {config : Config}
    (haction : action = .fetch ∨ action = .status)
    (h : readInbox lib item db binding action cursor incarnation now config.fetchMaxItems.val
      config.responseMaxBytes.val = .ok page) :
    inboxAction lib env db binding
      (page.args lib action cursor (scopeOf lib binding action incarnation)) incarnation now
      config = .ok page.left := by
  have hlimit : 0 < config.fetchMaxItems.val := config.fetchMaxItems.property.1
  simp only [readInbox, Except.bind_eq_ok, Except.pure_eq_ok, Except.throw_ne_ok, ite_eq_iff,
    false_and, and_false, exists_false, false_or] at h
  obtain ⟨after, hafter, group, hgroup, hguard, ⟨items, next⟩, hpack, hpage⟩ := h
  obtain ⟨hle, _, hbuilt, hnone, _⟩ := pack_ok hpack
  set found := rowsAfter db binding action after config.fetchMaxItems.val with hfound
  have hcount : items.length ≤ config.fetchMaxItems.val ∧ items.length ≤ found.length := by
    simp only [entriesOf, List.length_map, List.length_zipIdx, List.length_take] at hle
    omega
  have hroom : page.rows.length = items.length := by
    rw [← hpage]
    simp only [List.length_take]
    omega
  have hviews := viewed_entries hbuilt
  have hshown : ∀ m ∈ ((found.map (·.1)).take config.fetchMaxItems.val).take (items.length + 1),
      viewed lib db action m = .ok () := by
    intro m hm
    rw [← List.map_take, ← List.map_take] at hm
    obtain ⟨m', hm', rfl⟩ := List.mem_map.mp hm
    exact hviews m' hm'
  have hzero : items.length = 0 → (found.map (·.1)).take config.fetchMaxItems.val = [] := by
    intro hzero
    obtain ⟨_, hentries⟩ := hnone (List.length_eq_zero_iff.mp hzero)
    simp only [entriesOf, List.map_eq_nil_iff, List.zipIdx_eq_nil_iff] at hentries
    rw [← List.map_take, hentries, List.map_nil]
  have hread : readPage lib db action ((found.map (·.1)).take config.fetchMaxItems.val)
      (incarnation.getD "None") now (some items.length) = _ := readPage_viewed hshown hzero
  rw [List.take_take, Nat.min_eq_left hcount.1] at hread
  have hposition : cursorPosition (page.args lib action cursor
      (scopeOf lib binding action incarnation)).cursor = .ok after := cursorPosition_args hafter
  have hleft : page.left = if action = .fetch then
      prepareFetch db ((found.take items.length).map (·.1)) now (incarnation.getD "None")
      else db := by rw [← hpage]
  rw [hfound, ← readRows_eq] at hread
  rw [hleft, List.map_take, hfound, ← readRows_eq]
  simp only [inboxAction, Except.bind_eq_ok, Except.throw_ne_ok, ite_eq_iff, false_and, and_false,
    exists_false, false_or]
  have hplain : ¬action.isHandoff = true ∧ ¬action = .ack := by
    rcases haction with rfl | rfl <;> decide
  refine ⟨by rcases haction with rfl | rfl <;> simp [Page.args], .inr ⟨hplain.1,
    by simp [Page.args], .inr ⟨hplain.2, by simp [Page.args], after, hposition, group, hgroup,
      hguard, ?_⟩⟩⟩
  simp only [Page.args, hroom]
  exact hread

/-! ## A page that can be read -/

omit [Clock T] in
theorem readInbox_succeeds {after : Nat} {group : Group T}
    (hafter : decodeAfter lib cursor (scopeOf lib binding action incarnation) = .ok after)
    (hgroup : groupRow db binding.groupId = .ok group)
    (hguard : action = .fetch → 6 * group.bodyLimit + 4096 ≤ maxBytes)
    (hempty : fits lib (pagePayload pageBase "items" [] none) maxBytes = .ok true)
    (hfits : ∀ entry ∈ entriesOf lib item db action (scopeOf lib binding action incarnation) limit
      (rowsAfter db binding action after limit), FitsAlone lib pageBase "items" maxBytes entry) :
    ∃ page, readInbox lib item db binding action cursor incarnation now limit maxBytes =
      .ok page := by
  obtain ⟨⟨items, next⟩, hpacked⟩ := pack_succeeds hempty hfits
  have hpass : ¬(action = .fetch ∧ maxBytes < 6 * group.bodyLimit + 4096) :=
    fun h => absurd (hguard h.1) (Nat.not_le.mpr h.2)
  set included := (rowsAfter db binding action after limit).take items.length
  refine ⟨⟨items, next, included, if action = .fetch then
    prepareFetch db (included.map (·.1)) now (incarnation.getD "None") else db⟩, ?_⟩
  simp only [readInbox, Except.bind_eq_ok, Except.pure_eq_ok, Except.throw_ne_ok, ite_eq_iff,
    false_and, and_false, exists_false, false_or]
  exact ⟨after, hafter, group, hgroup, hpass, (items, next), hpacked, rfl⟩

end

end TrwMcp.Comms
