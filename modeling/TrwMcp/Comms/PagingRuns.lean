import TrwMcp.Comms.Paging
import TrwMcp.Comms.RequestRuns

/-!
# Following a cursor through a moving mailbox

Rows are appended and never removed or moved, whatever runs between two pages (`Extends`), so a
rowid names one row for good. Each page ranges over the rowids from where the page before it
stopped, and the ranges of a traversal part the rowids: a row is in the range of one page, and
yielded there if it qualifies when that page is read.
-/

namespace TrwMcp.Comms

open Handoff Lib

/-! ## Rows stay in place -/

section

variable {T : Type} {db db' db₁ db₂ db₃ : Db T}

/-- What places a row in an inbox: its message, its group and its two parties. -/
def place (m : Row T) : String × String × String × String :=
  (m.1, m.2.groupId, m.2.senderMemberId, m.2.recipientMemberId)

/-- The places of the rows, in order. -/
def places (db : Db T) : List (String × String × String × String) := db.admissions.map place

theorem places_of_sameRows (h : SameRows db db') : places db' = places db := by
  have hplace := congrArg (List.map place) h
  simp only [List.map_map] at hplace
  exact hplace

/-- Every row is still where it was; rows may have been appended. -/
def Extends (db db' : Db T) : Prop := places db <+: places db'

namespace Extends

theorem refl (db : Db T) : Extends db db := List.prefix_refl _

theorem trans (h : Extends db₁ db₂) (h' : Extends db₂ db₃) : Extends db₁ db₃ :=
  List.IsPrefix.trans h h'

theorem of_eq (h : db'.admissions = db.admissions) : Extends db db' := by
  rw [Extends, places, places, h]

theorem of_sameRows (h : SameRows db db') : Extends db db' := by
  rw [Extends, places_of_sameRows h]

theorem of_append {rows : List (Row T)} (h : db'.admissions = db.admissions ++ rows) :
    Extends db db' := by
  rw [Extends, places, places, h, List.map_append]
  exact List.prefix_append _ _

theorem numbered (h : Extends db db') {m : Row T × Nat} (hm : m ∈ numbered db) :
    ∃ a, ((m.1.1, a), m.2) ∈ Comms.numbered db' ∧ place (m.1.1, a) = place m.1 := by
  obtain ⟨hpos, hget⟩ := mem_numbered.mp (show (m.1, m.2) ∈ _ from hm)
  have hplace : (places db)[m.2 - 1]? = some (place m.1) := by
    rw [places, List.getElem?_map, hget]
    rfl
  obtain ⟨more, hmore⟩ := h
  have hlater : (places db')[m.2 - 1]? = some (place m.1) := by
    rw [← hmore, List.getElem?_append_left (by
      exact (List.getElem?_eq_some_iff.mp hplace).1), hplace]
  rw [places, List.getElem?_map, Option.map_eq_some_iff] at hlater
  obtain ⟨row, hrow, hsame⟩ := hlater
  have hid : row.1 = m.1.1 := (Prod.mk.inj hsame).1
  refine ⟨row.2, mem_numbered.mpr ⟨hpos, ?_⟩, ?_⟩
  · rw [hrow, ← hid]
  · rw [← hsame, ← hid]

theorem length_le (h : Extends db db') : db.admissions.length ≤ db'.admissions.length := by
  simpa [places] using List.IsPrefix.length_le h

end Extends

variable [Clock T] {lib : Stdlib} {call : Call T} {now : T} {closed : Bool}

theorem places_tombstoneDue (db : Db T) (groupId : String) (grace : Nat) :
    places (tombstoneDue db groupId now grace) = places db := by
  unfold places tombstoneDue Dict.mapValues
  rw [List.map_map]
  refine List.map_congr_left fun m _ => ?_
  simp only [Function.comp_apply, place]
  split <;> rfl

theorem places_prepare (h : prepare lib db call = .ok (db', now, closed)) :
    places db' = places db := by
  simp only [prepare, Except.bind_eq_ok, Except.pure_eq_ok, Prod.mk.injEq] at h
  obtain ⟨born, hborn, swept, hswept, group, _, rfl, rfl, _⟩ := h
  have hclosed := congrArg (List.map place) (closeGroup_admissions (tombstoneDue swept
    call.snapshot.binding.groupId (effectiveTime db call.snapshot.binding.groupId call.wall)
    call.config.retryGraceSeconds.val) call.snapshot.binding.groupId call.snapshot.allTerminal)
  have hswept' := congrArg (List.map place) (sweepExpired_admissions hswept)
  refine (hclosed.trans (places_tombstoneDue _ _ _)).trans (hswept'.trans ?_)
  exact (places_of_sameRows (sameRows_expireDue _ _ _ _)).trans
    (show places born = places db from places_of_sameRows (sameRows_ensureGroup hborn))

theorem extends_admitMessage {env : Surroundings} {snapshot : CallerSnapshot} {e : Envelope}
    {ttl : Nat} {live : Bool} {row : Row T}
    (h : admitMessage lib env db snapshot e now ttl live = .ok (db', row)) : Extends db db' := by
  obtain ⟨_, ⟨rfl, _⟩ | ⟨_, _, hins, _⟩⟩ := admitMessage_cases h
  · exact .refl _
  · exact .of_append (insertAdmission_ok hins).2.2

theorem extends_notify {env : Surroundings} {snapshot : CallerSnapshot} {scope : String}
    {notice : Notice} {limit ttl : Nat} {rows : List (Row T)}
    (h : notify lib env db snapshot scope notice now limit ttl = .ok (db', rows)) :
    Extends db db' := by
  simp only [notify, Except.bind_eq_ok, Except.pure_eq_ok, Except.throw_ne_ok, ite_eq_iff,
    false_and, and_false, exists_false, false_or] at h
  obtain ⟨_, _, _, retained, _, reached, hreached, _, rfl⟩ := h
  refine Except.foldlM_invariant (I := fun acc => Extends db acc.1) ?_ (Extends.refl db) hreached
  intro acc peer acc' _ hextends hstep
  split at hstep
  · next hadmit =>
    cases hstep
    exact hextends.trans (extends_admitMessage hadmit)
  · split at hstep
    · cases hstep
      exact hextends
    · cases hstep
  · cases hstep

theorem extends_sendBody {args : SendArgs} (h : sendBody lib call args db now = .ok db') :
    Extends db db' := by
  simp only [sendBody, Except.bind_eq_ok, Except.throw_ne_ok, ite_eq_iff,
    false_and, and_false, exists_false, false_or] at h
  obtain ⟨_, _, mid, hmid, record, _, text, _, h⟩ := h
  refine (Extends.of_sameRows (sameRows_touch hmid)).trans ?_
  split at h
  · unfold sendDirect at h
    obtain ⟨⟨admitted, row⟩, hadmit, h⟩ := Except.bind_eq_ok.mp h
    refine (extends_admitMessage hadmit).trans ?_
    cases record with
    | none =>
        cases h
        exact .refl _
    | some r => exact .of_sameRows (sameRows_offer h)
  · unfold sendScoped at h
    obtain ⟨parsed, _, h⟩ := Except.bind_eq_ok.mp h
    obtain ⟨⟨notified, rows⟩, hnotify, h⟩ := Except.bind_eq_ok.mp h
    cases h
    exact extends_notify hnotify

theorem extends_perform (h : Performs lib db call db') : Extends db db' := by
  unfold Performs perform at h
  split at h
  · next committed refusal htransact =>
      subst h
      unfold transact at htransact
      obtain ⟨⟨mid, now, closed⟩, hprepare, htransact⟩ := Except.bind_eq_ok.mp htransact
      have hmid : Extends db mid := by
        rw [Extends, places_prepare hprepare]
      refine hmid.trans ?_
      simp only at htransact
      split at htransact
      · next hbody =>
          cases htransact
          unfold body at hbody
          split at hbody
          · exact extends_sendBody hbody
          · exact .of_sameRows (sameRows_inboxBody hbody)
          · exact .of_sameRows (sameRows_peersBody hbody)
      · obtain ⟨counted, hcount, htransact⟩ := Except.bind_eq_ok.mp htransact
        cases htransact
        exact .of_sameRows (sameRows_countRefusal hcount)
      · cases htransact
  · exact h ▸ .refl _

theorem extends_run {calls : List (Call T)} (h : Run (Performs lib) db calls db') :
    Extends db db' :=
  Run.invariant (I := Extends db) (.refl db)
    (fun _ _ _ hs hstep => hs.trans (extends_perform hstep)) h

end

/-! ## Traversals -/

/-- Who follows a cursor: the caller, the action and the incarnation it was issued for. -/
structure Pager where
  binding : CallerBinding
  action : InboxAction
  incarnation : Option String

section

variable {T : Type} [Clock T]

/-- A page, and the mailbox it was read in. -/
structure Visit (T : Type) where
  db : Db T
  page : Page T

variable (lib : Stdlib) (item : Row T → Json) (pager : Pager)

/-- A call of the pager reads its page in this mailbox: prepared, and the caller's lease renewed. -/
def Enters (db : Db T) (now : T) (mid : Db T) : Prop :=
  ∃ (call : Call T) (args : InboxArgs) (prepared : Db T) (closed : Bool),
    call.snapshot.binding = pager.binding ∧ args.action = pager.action ∧
    prepare lib db call = .ok (prepared, now, closed) ∧
    renewCaller call args prepared now call.config.leaseTtlSeconds.val =
      .ok (mid, pager.incarnation)

/-- The pages read by following a cursor from a mailbox on. Any calls may run before each page, the
page's own call among them, and each page has its own limit and bound. -/
inductive Follows : Db T → Option String → List (Visit T) → Prop
  | stop (db : Db T) (cursor : Option String) : Follows db cursor []
  | visit {db db' : Db T} {cursor : Option String} {calls : List (Call T)} {visit : Visit T}
      {visits : List (Visit T)} {now : T} {limit maxBytes : Nat} :
      Run (Performs lib) db calls db' → Enters lib pager db' now visit.db → 0 < limit →
      readInbox lib item visit.db pager.binding pager.action cursor pager.incarnation now limit
        maxBytes = .ok visit.page →
      (visit.page.next = none → visits = []) → Follows db' visit.page.next visits →
      Follows db cursor (visit :: visits)

end

section

variable {T : Type}

/-- The last page read has no continuation. -/
def Complete (visits : List (Visit T)) : Prop := ∃ v ∈ visits.getLast?, v.page.next = none

/-- The rowids of the pages, in the order they were yielded. -/
def yielded (visits : List (Visit T)) : List Nat := visits.flatMap fun v => v.page.ids

/-- One page ranges over the row: it yields it if the row qualifies when the page is read, and no
other page yields it. -/
def YieldedOnce (pager : Pager) (visits : List (Visit T)) (m : Row T × Nat) : Prop :=
  ∃ before v after, visits = before ++ v :: after ∧
    (∀ w ∈ before ++ after, m.2 ∉ w.page.ids) ∧
    ∃ a, ((m.1.1, a), m.2) ∈ numbered v.db ∧ place (m.1.1, a) = place m.1 ∧
      (m.2 ∈ v.page.ids ↔ selects pager.binding pager.action a = true)

/-! ## The ranges of a traversal -/

variable {lib : Stdlib} {item : Row T → Json} {pager : Pager} {scope : String}

/-- Pages whose ranges follow one another from a rowid on. -/
inductive Chain (lib : Stdlib) (item : Row T → Json) (pager : Pager) (scope : String) :
    Nat → List (Visit T) → Prop
  | stop (after : Nat) : Chain lib item pager scope after []
  | visit {after : Nat} {stop : Option Nat} {v : Visit T} {visits : List (Visit T)} :
      Paged lib item v.db pager.binding pager.action scope after stop v.page →
      (stop = none → visits = []) → (∀ last ∈ stop, Chain lib item pager scope last visits) →
      Chain lib item pager scope after (v :: visits)

namespace Paged

variable {db : Db T} {binding : CallerBinding} {action : InboxAction} {after : Nat}
  {stop : Option Nat} {page : Page T}

theorem mem_rows (h : Paged lib item db binding action scope after stop page) {m : Row T × Nat} :
    m ∈ page.rows ↔ m ∈ numbered db ∧ Within after stop m.2 ∧
      selects binding action m.1.2 = true := by
  rw [h.rows, List.mem_filter, Bool.and_eq_true, decide_eq_true_eq]

theorem within (h : Paged lib item db binding action scope after stop page) {n : Nat}
    (hn : n ∈ page.ids) : Within after stop n := by
  obtain ⟨m, hm, rfl⟩ := List.mem_map.mp hn
  exact (h.mem_rows.mp hm).2.1

theorem mem_ids (h : Paged lib item db binding action scope after stop page) {m : Row T} {n : Nat}
    (hm : (m, n) ∈ numbered db) (hwithin : Within after stop n) :
    n ∈ page.ids ↔ selects binding action m.2 = true := by
  constructor
  · intro hn
    obtain ⟨m', hm', rfl⟩ := List.mem_map.mp hn
    obtain ⟨hmem, _, hselects⟩ := h.mem_rows.mp hm'
    have hget := (mem_numbered.mp (show (m'.1, m'.2) ∈ _ from hmem)).2
    rw [(mem_numbered.mp hm).2] at hget
    rw [Option.some.inj hget]
    exact hselects
  · intro hselects
    exact List.mem_map.mpr ⟨(m, n), h.mem_rows.mpr ⟨hm, hwithin, hselects⟩, rfl⟩

theorem ids_pairwise (h : Paged lib item db binding action scope after stop page) :
    page.ids.Pairwise (· < ·) := by
  rw [Page.ids, h.rows]
  exact List.pairwise_map.mpr ((numbered_pairwise db).filter _)

end Paged

namespace Chain

variable {after : Nat} {visits : List (Visit T)}

theorem pairwise (h : Chain lib item pager scope after visits) :
    (yielded visits).Pairwise (· < ·) ∧ ∀ n ∈ yielded visits, after < n := by
  induction h with
  | stop => exact ⟨List.Pairwise.nil, by simp [yielded]⟩
  | @visit after stop v visits hpaged hnone _ ih =>
      cases stop with
      | none =>
          obtain rfl := hnone rfl
          simp only [yielded, List.flatMap_cons, List.flatMap_nil, List.append_nil]
          exact ⟨hpaged.ids_pairwise, fun n hn => (hpaged.within hn).1⟩
      | some last =>
          obtain ⟨hrest, hlater⟩ := ih last rfl
          have hstart : after < last := (hpaged.within (hpaged.stops last rfl)).1
          simp only [yielded, List.flatMap_cons]
          refine ⟨List.pairwise_append.mpr ⟨hpaged.ids_pairwise, hrest, fun n hn n' hn' => ?_⟩,
            fun n hn => ?_⟩
          · exact ((hpaged.within hn).2 last rfl).trans_lt (hlater n' hn')
          · rcases List.mem_append.mp hn with hn | hn
            · exact (hpaged.within hn).1
            · exact hstart.trans (hlater n hn)

theorem length_le (h : Chain lib item pager scope after visits) :
    visits.length ≤ (yielded visits).length + 1 := by
  induction h with
  | stop => exact Nat.zero_le _
  | @visit after stop v visits hpaged hnone _ ih =>
      cases stop with
      | none =>
          obtain rfl := hnone rfl
          exact Nat.succ_le_succ (Nat.zero_le _)
      | some last =>
          have hpos := List.length_pos_of_mem (hpaged.stops last rfl)
          have hrest := ih last rfl
          simp only [yielded, List.flatMap_cons, List.length_append, List.length_cons] at hrest ⊢
          omega

theorem once (h : Chain lib item pager scope after visits) (hcomplete : Complete visits) {n : Nat}
    (hn : after < n) :
    ∃ before v later, visits = before ++ v :: later ∧
      (∀ w ∈ before ++ later, n ∉ w.page.ids) ∧
      ∀ m, (m, n) ∈ numbered v.db →
        (n ∈ v.page.ids ↔ selects pager.binding pager.action m.2 = true) := by
  induction h with
  | stop =>
      obtain ⟨v, hv, _⟩ := hcomplete
      cases hv
  | @visit after stop v visits hpaged hnone hchain ih =>
      by_cases hwithin : Within after stop n
      · refine ⟨[], v, visits, rfl, fun w hw hmem => ?_, fun m hm => hpaged.mem_ids hm hwithin⟩
        rw [List.nil_append] at hw
        cases stop with
        | none =>
            rw [hnone rfl] at hw
            cases hw
        | some last =>
            have hlater := (hchain last rfl).pairwise.2 n (List.mem_flatMap.mpr ⟨w, hw, hmem⟩)
            exact absurd (hwithin.2 last rfl) (Nat.not_le.mpr hlater)
      · cases stop with
        | none => exact absurd ⟨hn, by simp⟩ hwithin
        | some last =>
            have hpast : last < n := by
              refine Nat.lt_of_not_le fun hle => hwithin ⟨hn, fun l hl => ?_⟩
              obtain rfl := Option.mem_some_iff.mp hl
              exact hle
            have hrest : Complete visits := by
              obtain ⟨u, hu, hend⟩ := hcomplete
              cases visits with
              | nil =>
                  obtain rfl : v = u := by simpa using hu
                  rw [hpaged.next] at hend
                  cases hend
              | cons w visits => exact ⟨u, by simpa using hu, hend⟩
            obtain ⟨before, u, later, rfl, hother, hu⟩ := ih last rfl hrest hpast
            refine ⟨v :: before, u, later, rfl, fun w hw => ?_, hu⟩
            rcases List.mem_cons.mp hw with rfl | hw
            · exact fun hmem => absurd ((hpaged.within hmem).2 last rfl) (Nat.not_le.mpr hpast)
            · exact hother w hw

end Chain

/-! ## Following cursors -/

variable [Clock T] {start mid : Db T} {now : T} {cursor : Option String} {visits : List (Visit T)}

theorem places_enters (h : Enters lib pager start now mid) : places mid = places start := by
  obtain ⟨call, args, prepared, closed, _, _, hprepare, hrenew⟩ := h
  exact (places_of_sameRows (sameRows_renewCaller hrenew)).trans (places_prepare hprepare)

/-- The rows a traversal started with are in every mailbox it reads, and the last mailbox has the
rows of all the others. -/
theorem Follows.extends (h : Follows lib item pager start cursor visits) :
    ∀ v ∈ visits, Extends start v.db ∧ ∀ w ∈ visits.getLast?,
      v.db.admissions.length ≤ w.db.admissions.length := by
  induction h with
  | stop => simp
  | @visit db db' cursor calls v visits now limit maxBytes hrun henters _ _ _ _ ih =>
      have hmid : places v.db = places db' := places_enters henters
      have hlength : v.db.admissions.length = db'.admissions.length := by
        simpa [places] using congrArg List.length hmid
      have hstart : Extends db v.db := by
        rw [Extends, hmid]
        exact extends_run hrun
      intro u hu
      rcases List.mem_cons.mp hu with rfl | hu
      · refine ⟨hstart, fun w hw => ?_⟩
        cases visits with
        | nil =>
            obtain rfl : u = w := by simpa using hw
            exact le_rfl
        | cons x visits =>
            have hlast : w ∈ (x :: visits).getLast? := by simpa using hw
            rw [hlength]
            exact (ih w (List.mem_of_mem_getLast? hlast)).1.length_le
      · refine ⟨(extends_run hrun).trans (ih u hu).1, fun w hw => ?_⟩
        cases visits with
        | nil => cases hu
        | cons x visits => exact (ih u hu).2 w (by simpa using hw)

theorem Follows.chain (h : Follows lib item pager start cursor visits) {after : Nat}
    (hafter : decodeAfter lib cursor (scopeOf lib pager.binding pager.action pager.incarnation) =
      .ok after) :
    Chain lib item pager (scopeOf lib pager.binding pager.action pager.incarnation) after
      visits := by
  induction h generalizing after with
  | stop => exact .stop after
  | @visit db db' cursor calls v visits now limit maxBytes _ _ hlimit hread hnone hrest ih =>
      obtain ⟨from_, stop, hfrom, hpaged⟩ := readInbox_ok hlimit hread
      rw [hafter] at hfrom
      obtain rfl := Except.ok.inj hfrom
      refine .visit hpaged (fun hstop => hnone (by rw [hpaged.next, hstop]; rfl)) ?_
      intro last hlast
      obtain rfl := Option.mem_def.mp hlast
      have hnext : v.page.next = some (issue _ last) := hpaged.next
      cases hrest with
      | stop => exact .stop last
      | visit hrun henters hlimit' hread' hnone' hrest' =>
          obtain ⟨from_, _, hfrom, _⟩ := readInbox_ok hlimit' hread'
          rw [hnext] at hfrom
          have hissue := (issue_of_decodeAfter hfrom).1
          obtain rfl := issue_injective hissue
          exact ih (by rw [hnext]; exact hfrom)

theorem Follows.paged (h : Follows lib item pager start cursor visits) :
    ∀ v ∈ visits, ∃ after stop, Paged lib item v.db pager.binding pager.action
      (scopeOf lib pager.binding pager.action pager.incarnation) after stop v.page := by
  induction h with
  | stop => simp
  | @visit _ _ _ _ v _ _ _ _ _ _ hlimit hread _ _ ih =>
      obtain ⟨after, stop, _, hpaged⟩ := readInbox_ok hlimit hread
      exact List.forall_mem_cons.mpr ⟨⟨after, stop, hpaged⟩, ih⟩

theorem length_le_of_pairwise {ns : List Nat} {low high : Nat} (h : ns.Pairwise (· < ·))
    (hlow : ∀ n ∈ ns, low < n) (hhigh : ∀ n ∈ ns, n ≤ high) : ns.length ≤ high - low := by
  have hsub : ns ⊆ List.range' (low + 1) (high - low) := by
    intro n hn
    have := hlow n hn
    have := hhigh n hn
    exact List.mem_range'_1.mpr ⟨by omega, by omega⟩
  have hnodup : ns.Nodup := h.imp fun hlt => Nat.ne_of_lt hlt
  simpa using (hnodup.subperm hsub).length_le

theorem Follows.length_le (h : Follows lib item pager start none visits) :
    ∀ w ∈ visits.getLast?, visits.length ≤ w.db.admissions.length + 1 := by
  intro w hw
  have hchain := h.chain (show decodeAfter lib none _ = .ok 0 from rfl)
  obtain ⟨hpairwise, hlow⟩ := hchain.pairwise
  have hhigh : ∀ n ∈ yielded visits, n ≤ w.db.admissions.length := by
    intro n hn
    obtain ⟨v, hv, hids⟩ := List.mem_flatMap.mp hn
    obtain ⟨m, hm, rfl⟩ := List.mem_map.mp hids
    obtain ⟨_, _, hpaged⟩ := h.paged v hv
    obtain ⟨hpos, hget⟩ := mem_numbered.mp (show (m.1, m.2) ∈ _ from (hpaged.mem_rows.mp hm).1)
    have hbound := (List.getElem?_eq_some_iff.mp hget).1
    have hgrown := (h.extends v hv).2 w hw
    omega
  exact hchain.length_le.trans (Nat.succ_le_succ (length_le_of_pairwise hpairwise hlow hhigh))

theorem Follows.yieldedOnce (h : Follows lib item pager start none visits)
    (hcomplete : Complete visits) : ∀ m ∈ numbered start, YieldedOnce pager visits m := by
  intro m hm
  have hpos : 0 < m.2 := (mem_numbered.mp (show (m.1, m.2) ∈ _ from hm)).1
  obtain ⟨before, v, later, rfl, hother, hv⟩ :=
    (h.chain (show decodeAfter lib none _ = .ok 0 from rfl)).once hcomplete hpos
  obtain ⟨a, ha, hplace⟩ := (h.extends v (by simp)).1.numbered hm
  exact ⟨before, v, later, rfl, hother, a, ha, hplace, hv _ ha⟩

/-- The rowids SQLite has. -/
def maxRowid : Nat := 2 ^ 63 - 1

theorem Follows.accepted (hdigest : HexDigest lib)
    (h : Follows lib item pager start cursor visits) {v : Visit T} (hv : v ∈ visits)
    (hrowids : v.db.admissions.length ≤ maxRowid) {text : String}
    (htext : v.page.next = some text) :
    ∃ after, decodeAfter lib (some text)
      (scopeOf lib pager.binding pager.action pager.incarnation) = .ok after := by
  obtain ⟨after, stop, hpaged⟩ := h.paged v hv
  rw [hpaged.next, Option.map_eq_some_iff] at htext
  obtain ⟨last, rfl, rfl⟩ := htext
  obtain ⟨m, hm, rfl⟩ := List.mem_map.mp (hpaged.stops last rfl)
  obtain ⟨hpos, hget⟩ := mem_numbered.mp (show (m.1, m.2) ∈ _ from (hpaged.mem_rows.mp hm).1)
  have hbound := (List.getElem?_eq_some_iff.mp hget).1
  exact ⟨m.2, decodeAfter_issue (hdigest _) hpos (by unfold maxRowid at hrowids; omega)⟩

/-- Where the next page of a traversal is read from. -/
def Pending (visits : List (Visit T)) (cursor : Option String) : Prop :=
  match visits.getLast? with
  | none => cursor = none
  | some v => v.page.next = cursor ∧ cursor.isSome ∧ v.db.admissions.length ≤ maxRowid

/-- A page of the pager can be read here: the group is there, the bound is one its policy allows,
and the empty page and the page of each single row fit it. -/
structure Fits (lib : Stdlib) (item : Row T → Json) (pager : Pager) (db : Db T) (after limit : Nat)
    (maxBytes : Nat) : Prop where
  group : ∃ group, groupRow db pager.binding.groupId = .ok group ∧
    (pager.action = .fetch → 6 * group.bodyLimit + 4096 ≤ maxBytes)
  empty : fits lib (pagePayload pageBase "items" [] none) maxBytes = .ok true
  alone : ∀ entry ∈ entriesOf lib item db pager.action
    (scopeOf lib pager.binding pager.action pager.incarnation) limit
    (rowsAfter db pager.binding pager.action after limit), FitsAlone lib pageBase "items" maxBytes
      entry

theorem Follows.continues (hdigest : HexDigest lib)
    (h : Follows lib item pager start none visits) (hpending : Pending visits cursor)
    {limit maxBytes : Nat} (hfits : ∀ after, Fits lib item pager mid after limit maxBytes) :
    ∃ page, readInbox lib item mid pager.binding pager.action cursor pager.incarnation now limit
      maxBytes = .ok page := by
  obtain ⟨after, hafter⟩ : ∃ after, decodeAfter lib cursor
      (scopeOf lib pager.binding pager.action pager.incarnation) = .ok after := by
    unfold Pending at hpending
    split at hpending
    · exact ⟨0, by rw [hpending]; rfl⟩
    · next v hlast =>
        obtain ⟨hnext, hsome, hrowids⟩ := hpending
        obtain ⟨text, rfl⟩ := Option.isSome_iff_exists.mp hsome
        exact h.accepted hdigest (List.mem_of_mem_getLast? hlast) hrowids hnext
  obtain ⟨group, hgroup, hguard⟩ := (hfits after).group
  exact readInbox_succeeds hafter hgroup hguard (hfits after).empty (hfits after).alone

end

/-! ## A status page -/

theorem keyDigests_hex : HexDigest keyDigests := by
  intro raw
  unfold keyDigests
  dsimp only
  split
  · decide
  · decide

def sampleMailbox : Db Nat := perform keyDigests {} sampleDirect

def sampleStatusArgs : InboxArgs where
  action := .status

def sampleStatus : Call Nat := sampleCall (.inbox sampleStatusArgs) .empty

def samplePager : Pager := ⟨sampleStatus.snapshot.binding, .status, none⟩

/-- The message ids alone. -/
def idItem (row : Row Nat) : Json := .str row.1

theorem sample_page :
    ((prepare keyDigests sampleMailbox sampleStatus).toOption.bind fun prepared =>
      (renewCaller sampleStatus sampleStatusArgs prepared.1 prepared.2.1 600).toOption.bind
        fun renewed => (readInbox keyDigests idItem renewed.1 samplePager.binding .status none none
          prepared.2.1 8 65536).toOption.map fun page => (renewed.2, page.next, page.ids)) =
      some (none, none, [1]) := by
  decide +kernel

/-- The first page of a status, and the same status as one action on the mailbox. -/
theorem inboxAction_readInbox_sample : ∃ (page : Page Nat) (mid : Db Nat) (now : Nat),
    page.ids = [1] ∧ inboxAction keyDigests sampleStatus.env mid samplePager.binding
      (page.args keyDigests .status none (scopeOf keyDigests samplePager.binding .status none))
      none now sampleConfig = .ok page.left := by
  obtain ⟨⟨prepared, now, closed⟩, -, h⟩ := Option.bind_eq_some_iff.mp sample_page
  obtain ⟨⟨mid, incarnation⟩, -, h⟩ := Option.bind_eq_some_iff.mp h
  obtain ⟨page, hread, hpage⟩ := Option.map_eq_some_iff.mp h
  exact ⟨page, mid, now, (Prod.mk.inj (Prod.mk.inj hpage).2).2,
    inboxAction_readInbox (.inr rfl) (Except.ok_of_toOption hread)⟩

/-! ## Rows keep what they say -/

section

variable {T : Type} {db db' db₁ db₂ db₃ : Db T}

/-- Every row is where it was and says what it said; its body may have been dropped. -/
def KeepsMessages (db db' : Db T) : Prop :=
  ∀ (n : Nat) (m : Row T), db.admissions[n]? = some m → ∃ m', db'.admissions[n]? = some m' ∧
    m'.1 = m.1 ∧ m'.2.identity = m.2.identity ∧ (m'.2.body = m.2.body ∨ m'.2.body = "")

namespace KeepsMessages

theorem refl (db : Db T) : KeepsMessages db db := fun _ m hm => ⟨m, hm, rfl, rfl, .inl rfl⟩

theorem trans (h : KeepsMessages db₁ db₂) (h' : KeepsMessages db₂ db₃) : KeepsMessages db₁ db₃ := by
  intro n m hm
  obtain ⟨m', hm', hid, hkept, hbody⟩ := h n m hm
  obtain ⟨m'', hm'', hid', hkept', hbody'⟩ := h' n m' hm'
  refine ⟨m'', hm'', hid'.trans hid, hkept'.trans hkept, ?_⟩
  rcases hbody' with hsame | hgone
  · rw [hsame]
    exact hbody
  · exact .inr hgone

theorem of_sameRows (h : SameRows db db') : KeepsMessages db db' := by
  intro n m hm
  have hcore : (db'.admissions.map fun m => (m.1, m.2.core))[n]? = some (m.1, m.2.core) := by
    rw [h, List.getElem?_map, hm]
    rfl
  rw [List.getElem?_map, Option.map_eq_some_iff] at hcore
  obtain ⟨m', hm', hsame⟩ := hcore
  obtain ⟨hid, hcore⟩ := Prod.mk.inj hsame
  exact ⟨m', hm', hid, congrArg (fun a : Admission T => { a with body := "" }) hcore,
    .inl (congrArg (·.body) hcore)⟩

theorem of_append {rows : List (Row T)} (h : db'.admissions = db.admissions ++ rows) :
    KeepsMessages db db' := by
  intro n m hm
  refine ⟨m, ?_, rfl, rfl, .inl rfl⟩
  rw [h, List.getElem?_append_left (List.getElem?_eq_some_iff.mp hm).1, hm]

end KeepsMessages

variable [Clock T] {lib : Stdlib} {call : Call T} {now : T} {closed : Bool}

theorem keepsMessages_tombstoneDue (db : Db T) (groupId : String) (now : T) (grace : Nat) :
    KeepsMessages db (tombstoneDue db groupId now grace) := by
  intro n m hm
  simp only [tombstoneDue, Dict.mapValues, List.getElem?_map, hm, Option.map_some,
    Option.some.injEq, exists_eq_left']
  split
  · exact ⟨trivial, rfl, .inr rfl⟩
  · exact ⟨trivial, rfl, .inl rfl⟩

theorem keepsMessages_prepare (h : prepare lib db call = .ok (db', now, closed)) :
    KeepsMessages db db' := by
  simp only [prepare, Except.bind_eq_ok, Except.pure_eq_ok, Prod.mk.injEq] at h
  obtain ⟨born, hborn, swept, hswept, group, _, rfl, rfl, _⟩ := h
  have hsame : SameRows born swept := by
    refine (?_ : SameRows born _).trans (.of_eq (sweepExpired_admissions hswept))
    exact sameRows_expireDue _ _ _ _
  have hswept' := KeepsMessages.of_sameRows ((sameRows_ensureGroup hborn).trans hsame)
  exact (hswept'.trans (keepsMessages_tombstoneDue _ _ _ _)).trans
    (.of_sameRows (.of_eq (closeGroup_admissions _ _ _)))

theorem keepsMessages_admitMessage {env : Surroundings} {snapshot : CallerSnapshot} {e : Envelope}
    {ttl : Nat} {live : Bool} {row : Row T}
    (h : admitMessage lib env db snapshot e now ttl live = .ok (db', row)) :
    KeepsMessages db db' := by
  obtain ⟨_, ⟨rfl, _⟩ | ⟨_, _, hins, _⟩⟩ := admitMessage_cases h
  · exact .refl _
  · exact .of_append (insertAdmission_ok hins).2.2

theorem keepsMessages_notify {env : Surroundings} {snapshot : CallerSnapshot} {scope : String}
    {notice : Notice} {limit ttl : Nat} {rows : List (Row T)}
    (h : notify lib env db snapshot scope notice now limit ttl = .ok (db', rows)) :
    KeepsMessages db db' := by
  simp only [notify, Except.bind_eq_ok, Except.pure_eq_ok, Except.throw_ne_ok, ite_eq_iff,
    false_and, and_false, exists_false, false_or] at h
  obtain ⟨_, _, _, retained, _, reached, hreached, _, rfl⟩ := h
  refine Except.foldlM_invariant (I := fun acc => KeepsMessages db acc.1) ?_ (.refl db) hreached
  intro acc peer acc' _ hkeeps hstep
  split at hstep
  · next hadmit =>
    cases hstep
    exact hkeeps.trans (keepsMessages_admitMessage hadmit)
  · split at hstep
    · cases hstep
      exact hkeeps
    · cases hstep
  · cases hstep

theorem keepsMessages_sendBody {args : SendArgs} (h : sendBody lib call args db now = .ok db') :
    KeepsMessages db db' := by
  simp only [sendBody, Except.bind_eq_ok, Except.throw_ne_ok, ite_eq_iff,
    false_and, and_false, exists_false, false_or] at h
  obtain ⟨_, _, mid, hmid, record, _, text, _, h⟩ := h
  refine (KeepsMessages.of_sameRows (sameRows_touch hmid)).trans ?_
  split at h
  · unfold sendDirect at h
    obtain ⟨⟨admitted, row⟩, hadmit, h⟩ := Except.bind_eq_ok.mp h
    refine (keepsMessages_admitMessage hadmit).trans ?_
    cases record with
    | none =>
        cases h
        exact .refl _
    | some r => exact .of_sameRows (sameRows_offer h)
  · unfold sendScoped at h
    obtain ⟨parsed, _, h⟩ := Except.bind_eq_ok.mp h
    obtain ⟨⟨notified, rows⟩, hnotify, h⟩ := Except.bind_eq_ok.mp h
    cases h
    exact keepsMessages_notify hnotify

theorem keepsMessages_perform (h : Performs lib db call db') : KeepsMessages db db' := by
  unfold Performs perform at h
  split at h
  · next committed refusal htransact =>
      subst h
      unfold transact at htransact
      obtain ⟨⟨mid, now, closed⟩, hprepare, htransact⟩ := Except.bind_eq_ok.mp htransact
      refine (keepsMessages_prepare hprepare).trans ?_
      simp only at htransact
      split at htransact
      · next hbody =>
          cases htransact
          unfold body at hbody
          split at hbody
          · exact keepsMessages_sendBody hbody
          · exact .of_sameRows (sameRows_inboxBody hbody)
          · exact .of_sameRows (sameRows_peersBody hbody)
      · obtain ⟨counted, hcount, htransact⟩ := Except.bind_eq_ok.mp htransact
        cases htransact
        exact .of_sameRows (sameRows_countRefusal hcount)
      · cases htransact
  · exact h ▸ .refl _

/-- No call, whoever makes it, takes a message away, moves it, or changes what it says; the body of
a message that is done with may be dropped. -/
theorem messages_kept {calls : List (Call T)} (h : Run (Performs lib) db calls db') :
    KeepsMessages db db' :=
  Run.invariant (I := KeepsMessages db) (.refl db)
    (fun _ _ _ hs hstep => hs.trans (keepsMessages_perform hstep)) h

end

theorem messages_kept_sample :
    KeepsMessages sampleMailbox (perform keyDigests sampleMailbox sampleStatus) :=
  messages_kept (Run.single (x := sampleStatus) rfl)

section

variable {lib : Stdlib}

/-- What a caller sends as a cursor is accepted exactly when it is the text that was issued for that
caller, action and incarnation at the rowid it is read as; one that was issued for others is refused
unless their scopes have one digest. -/
theorem cursor_round_trip (hhex : HexDigest lib) (binding : CallerBinding) (action : InboxAction)
    (incarnation : Option String) :
    (∀ text after,
      decodeAfter lib (some text) (scopeOf lib binding action incarnation) = .ok after ↔
        text = issue (scopeOf lib binding action incarnation) after ∧
          1 ≤ after ∧ after ≤ 2 ^ 63 - 1) ∧
    ∀ (binding' : CallerBinding) (action' : InboxAction) (incarnation' : Option String)
      (n after : Nat), n ≤ 2 ^ 63 - 1 →
      decodeAfter lib (some (issue (scopeOf lib binding' action' incarnation') n))
        (scopeOf lib binding action incarnation) = .ok after →
      scopeOf lib binding' action' incarnation' = scopeOf lib binding action incarnation ∧
        after = n := by
  have hscope : ∀ b a i, isHexText 64 (scopeOf lib b a i) = true := fun _ _ _ => hhex _
  refine ⟨fun text after => ⟨issue_of_decodeAfter, ?_⟩, ?_⟩
  · rintro ⟨rfl, hpos, hmax⟩
    exact decodeAfter_issue (hscope _ _ _) hpos hmax
  · intro binding' action' incarnation' n after hn h
    obtain ⟨htext, -, hmax⟩ := issue_of_decodeAfter h
    have hread : decodeCursor lib (issue (scopeOf lib binding' action' incarnation') n) 256 2 = _ :=
      decodeCursor_issue (hscope _ _ _) hn
    rw [htext, decodeCursor_issue (hscope _ _ _) hmax] at hread
    simp only [Option.some.injEq, List.cons.injEq, Json.str.injEq, Json.int.injEq, and_true,
      Int.natCast_inj] at hread
    exact ⟨hread.1.symm, hread.2⟩

end

theorem cursor_round_trip_sample :
    decodeAfter keyDigests
      (some (issue (scopeOf keyDigests samplePager.binding .status none) 1))
      (scopeOf keyDigests samplePager.binding .status none) = .ok 1 :=
  ((cursor_round_trip keyDigests_hex samplePager.binding .status none).1 _ 1).mpr
    ⟨rfl, by decide, by decide⟩

end TrwMcp.Comms
