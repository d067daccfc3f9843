import TrwMcp.Sync.PushRuns

/-!
# Batch isolation

What became of each row of one batch, as `_send` follows the replies: the rows of a successful reply
are accepted, those a 422 names or that are refused alone are rejected, and the rest are failed. A
server that refuses exactly the requests with a bad row has exactly the bad rows rejected.
-/

namespace TrwMcp.Sync

open Lib

/-! ## The fate of the rows -/

/-- The requests of a batch with their replies, and the rows by what became of them; `guessed` are
those refused alone and without a location. -/
structure Tally where
  sent : List (List Entry × Reply) := []
  accepted : List Entry := []
  failed : List Entry := []
  named : List Entry := []
  guessed : List Entry := []
  counted : Int := 0

def Tally.append (t t' : Tally) : Tally where
  sent := t.sent ++ t'.sent
  accepted := t.accepted ++ t'.accepted
  failed := t.failed ++ t'.failed
  named := t.named ++ t'.named
  guessed := t.guessed ++ t'.guessed
  counted := t.counted + t'.counted

def Tally.rows (t : Tally) : List Entry := t.accepted ++ t.failed ++ (t.named ++ t.guessed)

/-- Every request goes out: no row is quarantined and every switch is on. -/
structure Open (net : Net) (p : Pusher) : Prop where
  contact : ∀ tick, net.contact tick = true
  sharing : p.learningSharing = true
  consent : ∀ tick, net.learningSharing tick = true
  clear : ∀ tick e, net.quarantined tick e = false

/-- The reply to a request fails it as a whole. -/
def Reply.fails (count : Nat) : Reply → Prop
  | .raised | .refused _ _ => True
  | .ok errors _ _ _ => 0 < errors
  | .unprocessable details _ =>
      (entryReasons details count).1 = [] ∧ (entryReasons details count).2 = true
  | .unreadable => False

/-- How `_send` takes a list of rows apart. -/
inductive Isolates (net : Net) (p : Pusher) : List Entry → Tally → Prop
  | nil : Isolates net p [] {}
  | unsent {items : List Entry} (shut : ¬Open net p) : Isolates net p items { failed := items }
  | failed {items : List Entry} {tick : Nat} {reply : Reply} (some_ : items ≠ [])
      (answer : net.learningsReply tick p.url items = reply) (fails : reply.fails items.length) :
      Isolates net p items { sent := [(items, reply)], failed := items }
  | accepted {items : List Entry} {tick : Nat} {errors inserted updated skipped : Int}
      (some_ : items ≠ [])
      (answer : net.learningsReply tick p.url items = .ok errors inserted updated skipped)
      (clean : errors ≤ 0) :
      Isolates net p items {
        sent := [(items, .ok errors inserted updated skipped)], accepted := items
        counted := inserted + updated + skipped }
  | named {items : List Entry} {tick : Nat} {details : List Detail} {reason : String} {t : Tally}
      (answer : net.learningsReply tick p.url items = .unprocessable details reason)
      (names : (entryReasons details items.length).1 ≠ [])
      (rest : Isolates net p (unnamed items (entryReasons details items.length).1) t) :
      Isolates net p items (Tally.append {
        sent := [(items, .unprocessable details reason)]
        named := namedRows items (entryReasons details items.length).1 } t)
  | guessed {e : Entry} {tick : Nat} {details : List Detail} {reason : String}
      (answer : net.learningsReply tick p.url [e] = .unprocessable details reason)
      (none_ : entryReasons details 1 = ([], false)) :
      Isolates net p [e] { sent := [([e], .unprocessable details reason)], guessed := [e] }
  | halves {items : List Entry} {tick : Nat} {details : List Detail} {reason : String}
      {t t' : Tally}
      (answer : net.learningsReply tick p.url items = .unprocessable details reason)
      (none_ : entryReasons details items.length = ([], false))
      (many : 2 ≤ items.length)
      (first : Isolates net p (items.take (items.length / 2)) t)
      (last : Isolates net p (items.drop (items.length / 2)) t') :
      Isolates net p items
        (Tally.append { sent := [(items, .unprocessable details reason)] } (t.append t'))

section

variable {net : Net} {p : Pusher} {items : List Entry} {t t' : Tally} {w w' : Wire}

theorem Tally.rows_append (t t' : Tally) : (t.append t').rows.Perm (t.rows ++ t'.rows) := by
  rw [List.perm_iff_count]
  intro e
  simp only [Tally.rows, Tally.append, List.count_append]
  omega

theorem Isolates.rows_perm (h : Isolates net p items t) : t.rows.Perm items := by
  induction h with
  | nil => exact .refl _
  | unsent _ => simp [Tally.rows]
  | failed _ _ _ => simp [Tally.rows]
  | accepted _ _ _ => simp [Tally.rows]
  | guessed _ _ => simp [Tally.rows]
  | @named items tick details reason t _ _ _ ih =>
      refine (Tally.rows_append _ _).trans ?_
      refine List.Perm.trans ?_ (named_unnamed items (entryReasons details items.length).1).symm
      simpa [Tally.rows] using ih.append_left _
  | @halves items _ _ _ t t' _ _ _ _ _ ih ih' =>
      refine (Tally.rows_append _ _).trans ?_
      have hboth := (Tally.rows_append t t').trans (ih.append ih')
      rw [List.take_append_drop] at hboth
      simpa [Tally.rows] using hboth

theorem unnamed_sublist (items : List Entry) (named : List (Nat × String)) :
    (unnamed items named).Sublist items := by
  have h : ((items.zipIdx.filter fun m => !Dict.has named m.2).map (·.1)).Sublist
      (items.zipIdx.map (·.1)) := List.filter_sublist.map _
  rwa [List.zipIdx_map_fst] at h

/-- A request is answered with success. -/
def Answered (q : List Entry × Reply) : Prop := q.2.success = true

theorem Isolates.sent_once (h : Isolates net p items t) (hnodup : items.Nodup) :
    (∀ q ∈ t.sent, q.1 ⊆ items) ∧
      t.sent.Pairwise fun q q' => Answered q → ∀ e ∈ q.1, e ∉ q'.1 := by
  have hunanswered (details : List Detail) (reason : String) (rows : List Entry) :
      ¬Answered (rows, .unprocessable details reason) := by simp [Answered, Reply.success]
  induction h with
  | nil => simp
  | unsent _ => simp
  | failed _ _ _ => simp
  | accepted _ _ _ => simp
  | guessed _ _ => simp
  | @named items tick details reason t _ _ _ ih =>
      have hsub := unnamed_sublist items (entryReasons details items.length).1
      obtain ⟨hrows, honce⟩ := ih (hsub.nodup hnodup)
      refine ⟨?_, ?_⟩
      · intro q hq
        rcases List.mem_cons.mp hq with rfl | hq
        · exact List.Subset.refl _
        · exact List.Subset.trans (hrows q hq) hsub.subset
      · exact List.pairwise_cons.mpr ⟨fun q _ h => absurd h (hunanswered _ _ _), honce⟩
  | @halves items tick details reason t t' _ _ _ _ _ ih ih' =>
      have hsplit := List.take_append_drop (items.length / 2) items
      obtain ⟨hrows, honce⟩ := ih ((List.take_sublist _ _).nodup hnodup)
      obtain ⟨hrows', honce'⟩ := ih' ((List.drop_sublist _ _).nodup hnodup)
      have hapart : ∀ e ∈ items.take (items.length / 2), e ∉ items.drop (items.length / 2) := by
        rw [← hsplit] at hnodup
        exact List.disjoint_of_nodup_append hnodup
      have hsent : (Tally.append { sent := [(items, .unprocessable details reason)] }
          (t.append t')).sent = (items, .unprocessable details reason) :: (t.sent ++ t'.sent) := rfl
      rw [hsent]
      refine ⟨?_, ?_⟩
      · intro q hq
        rcases List.mem_cons.mp hq with rfl | hq
        · exact List.Subset.refl _
        · rcases List.mem_append.mp hq with hq | hq
          · exact List.Subset.trans (hrows q hq) (List.take_subset _ _)
          · exact List.Subset.trans (hrows' q hq) (List.drop_subset _ _)
      · refine List.pairwise_cons.mpr ⟨fun q _ h => absurd h (hunanswered _ _ _), ?_⟩
        refine List.pairwise_append.mpr ⟨honce, honce', fun q hq q' hq' _ e he he' => ?_⟩
        exact hapart e (hrows q hq he) (hrows' q' hq' he')

/-- What a reply adds to the counts of accepted rows. -/
def Reply.counted : Reply → Int
  | .ok errors inserted updated skipped =>
      if errors ≤ 0 then inserted + updated + skipped else 0
  | _ => 0

theorem Isolates.accepted_eq (h : Isolates net p items t) :
    t.accepted = (t.sent.filter (·.2.success)).flatMap (·.1) ∧
      t.counted = (t.sent.map (·.2.counted)).sum := by
  induction h with
  | nil => simp
  | unsent _ => simp
  | @failed items tick reply _ _ fails =>
      cases reply with
      | ok errors inserted updated skipped =>
          have herrors : ¬errors ≤ 0 := by
            have : 0 < errors := fails
            omega
          simp [Reply.success, Reply.counted, herrors]
      | _ => simp [Reply.success, Reply.counted]
  | accepted _ _ clean => simp [Reply.success, Reply.counted, clean]
  | guessed _ _ => simp [Reply.success, Reply.counted]
  | named _ _ _ ih =>
      obtain ⟨haccepted, hcounted⟩ := ih
      simp [Tally.append, Reply.success, Reply.counted, haccepted, hcounted]
  | halves _ _ _ _ _ ih ih' =>
      obtain ⟨haccepted, hcounted⟩ := ih
      obtain ⟨haccepted', hcounted'⟩ := ih'
      simp [Tally.append, Reply.success, Reply.counted, haccepted, haccepted', hcounted, hcounted']

theorem mem_namedRows_iff {e : Entry} {named : List (Nat × String)} :
    e ∈ namedRows items named ↔ ∃ m ∈ named, items[m.1]? = some e := by
  have hhas (i : Nat) : Dict.has named i = true ↔ ∃ m ∈ named, m.1 = i := by
    rw [Dict.has, Dict.lookup_isSome_iff, List.mem_map]
  simp only [namedRows, List.mem_map, List.mem_filter, hhas, Prod.exists,
    List.mem_zipIdx_iff_getElem?]
  constructor
  · rintro ⟨_, i, ⟨hget, m, why, hm, rfl⟩, rfl⟩
    exact ⟨m, why, hm, hget⟩
  · rintro ⟨i, why, hm, hget⟩
    exact ⟨e, i, ⟨hget, i, why, hm, rfl⟩, rfl⟩

/-! ## A server that refuses the bad rows -/

/-- The details name bad entries of the request, or nothing. -/
def PointsAtBad (bad : Entry → Bool) (items : List Entry) (details : List Detail) : Prop :=
  ∀ d ∈ details, d.loc = .nowhere ∨
    ∃ (i : Nat) (field : String) (e : Entry), d.loc = .entry i field ∧
      items[i]? = some e ∧ bad e = true

/-- A request with a bad row is a 422, any other one is a success that counts every row. -/
structure Isolating (net : Net) (url : String) (bad : Entry → Bool) : Prop where
  accepts : ∀ tick items, items ≠ [] → (∀ e ∈ items, bad e = false) →
    ∃ errors inserted updated skipped : Int, errors ≤ 0 ∧
      inserted + updated + skipped = items.length ∧
      net.learningsReply tick url items = .ok errors inserted updated skipped
  refuses : ∀ tick items, (∃ e ∈ items, bad e = true) →
    ∃ details reason, PointsAtBad bad items details ∧
      net.learningsReply tick url items = .unprocessable details reason

/-- No reply names an entry. -/
def Unlocated (sent : List (List Entry × Reply)) : Prop :=
  ∀ rows details reason, (rows, .unprocessable details reason) ∈ sent →
    ∀ d ∈ details, d.loc = .nowhere

variable {bad : Entry → Bool} {details : List Detail}

theorem addReason_points {acc : List (Nat × String) × Bool} {d : Detail}
    (hacc : acc.2 = false ∧ ∀ m ∈ acc.1, ∃ e, items[m.1]? = some e ∧ bad e = true)
    (hd : PointsAtBad bad items [d]) :
    (addReason items.length acc d).2 = false ∧
      ∀ m ∈ (addReason items.length acc d).1, ∃ e, items[m.1]? = some e ∧ bad e = true := by
  unfold addReason
  rcases hd d (by simp) with hloc | ⟨i, field, e, hloc, hget, hbad⟩
  · rw [hloc]
    exact hacc
  · have hi : i < items.length := (List.getElem?_eq_some_iff.mp hget).1
    rw [hloc]
    dsimp only
    rw [if_pos (by omega)]
    refine ⟨hacc.1, fun m hm => ?_⟩
    rcases Dict.mem_of_mem_set hm with rfl | hm
    · exact ⟨e, hget, hbad⟩
    · exact hacc.2 m hm

theorem entryReasons_points (h : PointsAtBad bad items details) :
    (entryReasons details items.length).2 = false ∧
      ∀ m ∈ (entryReasons details items.length).1, ∃ e, items[m.1]? = some e ∧ bad e = true := by
  unfold entryReasons
  generalize hacc : (([], false) : List (Nat × String) × Bool) = acc
  have hstart : acc.2 = false ∧ ∀ m ∈ acc.1, ∃ e, items[m.1]? = some e ∧ bad e = true := by
    rw [← hacc]
    simp
  clear hacc
  induction details generalizing acc with
  | nil => exact hstart
  | cons d rest ih =>
      have hd : PointsAtBad bad items [d] := fun d' hd' => h d' (by simp_all)
      exact ih (fun d' hd' => h d' (List.mem_cons_of_mem _ hd')) _ (addReason_points hstart hd)

theorem dict_set_ne_nil {κ ν : Type} [DecidableEq κ] (d : List (κ × ν)) (k : κ) (v : ν) :
    Dict.set d k v ≠ [] := by
  intro h
  have := Dict.lookup_set_self d k v
  rw [h] at this
  cases this

theorem addReason_keeps {count : Nat} {acc : List (Nat × String) × Bool} (d : Detail)
    (h : acc.1 ≠ []) : (addReason count acc d).1 ≠ [] := by
  unfold addReason
  cases d.loc with
  | request => exact h
  | nowhere => exact h
  | entry index field =>
      dsimp only
      split
      · exact dict_set_ne_nil _ _ _
      · exact h

theorem entryReasons_eq_nil (h : PointsAtBad bad items details) :
    (entryReasons details items.length).1 = [] ↔ ∀ d ∈ details, d.loc = .nowhere := by
  have hkeeps (rest : List Detail) (acc : List (Nat × String) × Bool) (hacc : acc.1 ≠ []) :
      (rest.foldl (addReason items.length) acc).1 ≠ [] := by
    induction rest generalizing acc with
    | nil => exact hacc
    | cons d rest ih => exact ih _ (addReason_keeps d hacc)
  unfold entryReasons
  induction details with
  | nil => simp
  | cons d rest ih =>
      have hrest : PointsAtBad bad items rest := fun d' hd' => h d' (List.mem_cons_of_mem _ hd')
      rw [List.foldl_cons, List.forall_mem_cons]
      rcases h d (by simp) with hloc | ⟨i, field, e, hloc, hget, -⟩
      · have hskip : addReason items.length ([], false) d = ([], false) := by
          rw [addReason, hloc]
        have htail := ih hrest
        simp only [hskip, hloc, true_and]
        exact htail
      · have hi : i < items.length := (List.getElem?_eq_some_iff.mp hget).1
        have hnamed : (addReason items.length ([], false) d).1 ≠ [] := by
          rw [addReason, hloc]
          dsimp only
          rw [if_pos (by omega)]
          exact dict_set_ne_nil _ _ _
        simp [hkeeps rest _ hnamed, hloc]

theorem Isolates.finds (hopen : Open net p) (hserver : Isolating net p.url bad)
    (h : Isolates net p items t) :
    t.failed = [] ∧ (∀ e ∈ t.accepted, bad e = false) ∧ (∀ e ∈ t.named, bad e = true) ∧
      (∀ e ∈ t.guessed, bad e = true) ∧ t.counted = t.accepted.length := by
  have hrefused {tick : Nat} {rows : List Entry} {details : List Detail} {reason : String}
      (hrows : rows ≠ []) (answer : net.learningsReply tick p.url rows =
        .unprocessable details reason) :
      (∃ e ∈ rows, bad e = true) ∧ PointsAtBad bad rows details := by
    by_cases hgood : ∀ e ∈ rows, bad e = false
    · obtain ⟨_, _, _, _, -, -, hok⟩ := hserver.accepts tick rows hrows hgood
      rw [hok] at answer
      cases answer
    · have hbad : ∃ e ∈ rows, bad e = true := by simpa using hgood
      obtain ⟨_, _, hpoints, hreply⟩ := hserver.refuses tick rows hbad
      rw [hreply] at answer
      cases answer
      exact ⟨hbad, hpoints⟩
  induction h with
  | nil => simp
  | unsent shut => exact absurd hopen shut
  | @failed items tick reply some_ answer fails =>
      exfalso
      by_cases hgood : ∀ e ∈ items, bad e = false
      · obtain ⟨errors, _, _, _, hclean, -, hok⟩ := hserver.accepts tick items some_ hgood
        rw [← answer, hok] at fails
        have : 0 < errors := fails
        omega
      · obtain ⟨_, _, hpoints, hreply⟩ := hserver.refuses tick items (by simpa using hgood)
        rw [← answer, hreply] at fails
        have hrequest := fails.2
        rw [(entryReasons_points hpoints).1] at hrequest
        cases hrequest
  | @accepted items tick _ _ _ _ some_ answer clean =>
      by_cases hgood : ∀ e ∈ items, bad e = false
      · obtain ⟨_, _, _, _, -, hcount, hok⟩ := hserver.accepts tick items some_ hgood
        rw [hok] at answer
        cases answer
        exact ⟨rfl, hgood, by simp, by simp, hcount⟩
      · obtain ⟨_, _, -, hreply⟩ := hserver.refuses tick items (by simpa using hgood)
        rw [hreply] at answer
        cases answer
  | @named items tick details reason t answer names _ ih =>
      obtain ⟨hfailed, haccepted, hnamed, hguessed, hcounted⟩ := ih
      have hitems : items ≠ [] := by
        rintro rfl
        refine names (List.eq_nil_iff_forall_not_mem.mpr fun m hm => ?_)
        exact absurd (entryReasons_index _ _ m hm) (by simp)
      have hpoints := (entryReasons_points (hrefused hitems answer).2).2
      refine ⟨hfailed, haccepted, fun e he => ?_, hguessed, by simpa [Tally.append] using hcounted⟩
      rcases List.mem_append.mp he with he | he
      · obtain ⟨m, hm, hrow⟩ := mem_namedRows_iff.mp he
        obtain ⟨e', hget, hbad⟩ := hpoints m hm
        rw [hrow] at hget
        cases hget
        exact hbad
      · exact hnamed e he
  | @guessed e tick _ _ answer _ =>
      obtain ⟨⟨e', he', hbad⟩, -⟩ := hrefused (List.cons_ne_nil e []) answer
      rw [List.mem_singleton] at he'
      subst he'
      exact ⟨rfl, by simp, by simp, by simpa using hbad, rfl⟩
  | halves _ _ _ _ _ ih ih' =>
      obtain ⟨hfailed, haccepted, hnamed, hguessed, hcounted⟩ := ih
      obtain ⟨hfailed', haccepted', hnamed', hguessed', hcounted'⟩ := ih'
      refine ⟨by simp [Tally.append, hfailed, hfailed'], ?_, ?_, ?_, ?_⟩
      · simpa [Tally.append, or_imp, forall_and] using ⟨haccepted, haccepted'⟩
      · simpa [Tally.append, or_imp, forall_and] using ⟨hnamed, hnamed'⟩
      · simpa [Tally.append, or_imp, forall_and] using ⟨hguessed, hguessed'⟩
      · simp [Tally.append, hcounted, hcounted']

theorem Isolates.answered (h : Isolates net p items t) :
    ∀ q ∈ t.sent, q.1 ≠ [] ∧ ∃ tick, net.learningsReply tick p.url q.1 = q.2 := by
  induction h with
  | nil => simp
  | unsent _ => simp
  | failed some_ answer _ => simpa using ⟨some_, _, answer⟩
  | accepted some_ answer _ => simpa using ⟨some_, _, answer⟩
  | guessed answer _ => simpa using ⟨_, answer⟩
  | @named items _ details _ _ answer names _ ih =>
      have hitems : items ≠ [] := by
        rintro rfl
        refine names (List.eq_nil_iff_forall_not_mem.mpr fun m hm => ?_)
        exact absurd (entryReasons_index _ _ m hm) (by simp)
      exact List.forall_mem_cons.mpr ⟨⟨hitems, _, answer⟩, ih⟩
  | @halves items _ _ _ _ _ answer _ many _ _ ih ih' =>
      have hitems : items ≠ [] := List.ne_nil_of_length_pos (by omega)
      intro q hq
      simp only [Tally.append, List.mem_append, List.mem_singleton] at hq
      rcases hq with rfl | hq | hq
      · exact ⟨hitems, _, answer⟩
      · exact ih q hq
      · exact ih' q hq

theorem Isolates.named_eq_nil (h : Isolates net p items t) :
    t.named = [] ↔ ∀ q ∈ t.sent, ∀ details reason, q.2 = .unprocessable details reason →
      (entryReasons details q.1.length).1 = [] := by
  induction h with
  | nil => simp
  | unsent _ => simp
  | @failed _ _ reply _ _ fails =>
      refine iff_of_true rfl fun q hq details reason heq => ?_
      cases List.mem_singleton.mp hq
      have heq : reply = .unprocessable details reason := heq
      rw [heq] at fails
      exact fails.1
  | accepted _ _ _ => simp
  | guessed _ none_ =>
      refine iff_of_true rfl fun q hq details reason heq => ?_
      cases List.mem_singleton.mp hq
      cases heq
      exact congrArg (·.1) none_
  | @named items _ details reason _ _ names _ _ =>
      refine iff_of_false (fun hnil => ?_) fun hall => ?_
      · obtain ⟨m, hm⟩ := List.exists_mem_of_ne_nil _ names
        obtain ⟨e, hget⟩ : ∃ e, items[m.1]? = some e :=
          ⟨_, List.getElem?_eq_getElem (entryReasons_index _ _ m hm)⟩
        have hrow := mem_namedRows_iff.mpr ⟨m, hm, hget⟩
        exact List.ne_nil_of_mem hrow (List.append_eq_nil_iff.mp hnil).1
      · exact names (hall (items, .unprocessable details reason) (by simp [Tally.append]) _ _ rfl)
  | halves _ none_ _ _ _ ih ih' =>
      simp only [Tally.append, List.nil_append, List.append_eq_nil_iff, ih, ih', List.mem_append,
        List.mem_cons, or_imp, forall_and, forall_eq, List.cons_append]
      refine ⟨fun hboth => ⟨fun details reason heq => ?_, hboth⟩, fun hall => hall.2⟩
      cases heq
      exact congrArg (·.1) none_

/-! ## What `_send` does -/

theorem anyRefused_ok {b : Bool} (h : anyRefused net items w = (.ok b, w')) :
    w'.sent = w.sent ∧ (b = true → ¬Open net p) := by
  induction items generalizing w with
  | nil =>
      obtain ⟨rfl, rfl⟩ := Eff.pure_eq_ok.mp h
      exact ⟨rfl, nofun⟩
  | cons e rest ih =>
      obtain ⟨refused, w₁, hask, h⟩ := Eff.bind_eq_ok.mp h
      obtain ⟨hrefused, -, hsent⟩ := ask_eq_ok hask
      split at h
      · next hyes =>
          obtain ⟨rfl, rfl⟩ := Eff.pure_eq_ok.mp h
          refine ⟨hsent, fun _ hopen => ?_⟩
          have := hopen.clear w.tick e
          rw [hrefused, hyes] at this
          cases this
      · rw [← hsent]
        exact ih h

theorem learningsConsented_ok {b : Bool} (h : learningsConsented net p w = (.ok b, w')) :
    w'.sent = w.sent ∧ (b = false → ¬Open net p) := by
  unfold learningsConsented at h
  split at h
  · obtain ⟨hask, -, hsent⟩ := ask_eq_ok h
    refine ⟨hsent, fun hno hopen => ?_⟩
    have := hopen.consent w.tick
    rw [hask, hno] at this
    cases this
  · next hoff =>
      obtain ⟨rfl, rfl⟩ := Eff.pure_eq_ok.mp h
      exact ⟨rfl, fun _ hopen => hoff hopen.sharing⟩

theorem postLearnings_ok {reply : Reply} (h : postLearnings net p items w = (.ok reply, w')) :
    reply = .raised ∧ w'.sent = w.sent ∧ ¬Open net p ∨
      ∃ tick, net.learningsReply tick p.url items = reply ∧
        w'.sent = w.sent ++ [.learnings p.url items reply] := by
  unfold postLearnings at h
  obtain ⟨on, w₁, hask, h⟩ := Eff.bind_eq_ok.mp h
  obtain ⟨hon, -, hasked⟩ := ask_eq_ok hask
  split at h
  · obtain ⟨consented, w₂, hconsent, h⟩ := Eff.bind_eq_ok.mp h
    obtain ⟨hsent, hshut⟩ := learningsConsented_ok hconsent
    rw [hasked] at hsent
    split at h
    · cases h
      refine .inr ⟨w₂.tick, rfl, ?_⟩
      rw [← hsent]
    · next hno =>
        obtain ⟨rfl, rfl⟩ := Eff.pure_eq_ok.mp h
        exact .inl ⟨rfl, hsent, hshut (by simpa using hno)⟩
  · next hoff =>
      obtain ⟨rfl, rfl⟩ := Eff.pure_eq_ok.mp h
      refine .inl ⟨rfl, hasked, fun hopen => hoff ?_⟩
      rw [← hon]
      exact hopen.contact w.tick

/-- The tally is what was added to the outcome and to the inferred refusals. -/
structure Adds (url : String) (w : Wire) (out : BatchOutcome) (inferred : List (String × String))
    (t : Tally) (w' : Wire) (out' : BatchOutcome) (inferred' : List (String × String)) : Prop where
  sent : w'.sent = w.sent ++ t.sent.map fun q => .learnings url q.1 q.2
  failed : out'.failed = out.failed + t.failed.length
  counted : out'.pushed + out'.skipped = out.pushed + out.skipped + t.counted
  rejected : ∀ id, Dict.has out'.rejected id = true ↔
    Dict.has out.rejected id = true ∨ id ∈ t.named.map (·.id)
  inferred : inferred'.map (·.1) = inferred.map (·.1) ++ t.guessed.map (·.id)

variable {url : String} {out out' out₁ : BatchOutcome}
  {inferred inferred' inferred₁ : List (String × String)} {w₁ : Wire}

theorem Adds.trans (h : Adds url w out inferred t w₁ out₁ inferred₁)
    (h' : Adds url w₁ out₁ inferred₁ t' w' out' inferred') :
    Adds url w out inferred (t.append t') w' out' inferred' where
  sent := by
    rw [h'.sent, h.sent, Tally.append, List.map_append, List.append_assoc]
  failed := by
    rw [h'.failed, h.failed, Tally.append, List.length_append, Nat.add_assoc]
  counted := by
    rw [h'.counted, h.counted, Tally.append, Int.add_assoc]
  rejected id := by
    rw [h'.rejected, h.rejected, Tally.append, List.map_append, List.mem_append, or_assoc]
  inferred := by
    rw [h'.inferred, h.inferred, Tally.append, List.map_append, List.append_assoc]

theorem adds_refuseAll (error : String) {sent : List (List Entry × Reply)}
    (hsent : w'.sent = w.sent ++ sent.map fun q => .learnings url q.1 q.2) :
    Adds url w out inferred { sent, failed := items } w' (refuseAll items error out) inferred :=
  ⟨hsent, rfl, (Int.add_zero _).symm, by simp [refuseAll], by simp⟩

theorem Adds.fresh {k : Nat} (h : Adds url w out inferred t w₁ out₁ inferred₁)
    (ht : Isolates net p (items.take k) t)
    (hnodup : (inferred.map (·.1) ++ items.map (·.id)).Nodup) :
    (inferred₁.map (·.1) ++ (items.drop k).map (·.id)).Nodup := by
  have hguessed : t.guessed.Subperm (items.take k) := by
    refine List.Subperm.trans ?_ ht.rows_perm.subperm
    exact ((List.sublist_append_right _ _).trans (List.sublist_append_right _ _)).subperm
  have hrows := hguessed.append (List.Subperm.refl (items.drop k))
  rw [List.take_append_drop] at hrows
  obtain ⟨l, hperm, hsub⟩ := hrows
  rw [h.inferred, List.append_assoc, ← List.map_append]
  refine ((hperm.map _).append_left _).nodup_iff.mp ?_
  exact ((hsub.map _).append_left _).nodup hnodup

theorem send_isolates {fuel : Nat} (hfuel : items.length < fuel)
    (hnodup : (inferred.map (·.1) ++ items.map (·.id)).Nodup)
    (h : send net p fuel items out inferred w = (.ok (out', inferred'), w')) :
    ∃ t, Isolates net p items t ∧ Adds p.url w out inferred t w' out' inferred' := by
  induction fuel generalizing items out inferred out' inferred' w w' with
  | zero => omega
  | succ fuel ih =>
      unfold send at h
      split at h
      · next hempty =>
          obtain ⟨heq, rfl⟩ := Eff.pure_eq_ok.mp h
          cases heq
          rw [List.isEmpty_iff.mp hempty]
          exact ⟨_, .nil, by simp, rfl, (Int.add_zero _).symm, by simp, by simp⟩
      · next hempty =>
          have hrows : items ≠ [] := by simpa using hempty
          obtain ⟨refused, w₁, hasked, h⟩ := Eff.bind_eq_ok.mp h
          obtain ⟨hsent, hshut⟩ := anyRefused_ok (p := p) hasked
          split at h
          · next hyes =>
              obtain ⟨heq, rfl⟩ := Eff.pure_eq_ok.mp h
              cases heq
              exact ⟨_, .unsent (hshut hyes), adds_refuseAll _ (by simp [hsent])⟩
          · obtain ⟨reply, w₂, hreply, h⟩ := Eff.bind_eq_ok.mp h
            rcases postLearnings_ok hreply with ⟨rfl, hheld, hshut'⟩ | ⟨tick, hanswer, hposted⟩
            · obtain ⟨heq, rfl⟩ := Eff.pure_eq_ok.mp h
              cases heq
              exact ⟨_, .unsent hshut', adds_refuseAll _ (by simp [hheld, hsent])⟩
            · rw [hsent] at hposted
              cases reply with
              | raised =>
                  obtain ⟨heq, rfl⟩ := Eff.pure_eq_ok.mp h
                  cases heq
                  exact ⟨_, .failed hrows hanswer trivial, adds_refuseAll _ hposted⟩
              | refused status reason =>
                  obtain ⟨heq, rfl⟩ := Eff.pure_eq_ok.mp h
                  cases heq
                  exact ⟨_, .failed hrows hanswer trivial, adds_refuseAll _ hposted⟩
              | unreadable => exact absurd h Eff.raise_ne_ok
              | ok errors inserted updated skipped =>
                  dsimp only at h
                  split at h
                  · next herrors =>
                      obtain ⟨heq, rfl⟩ := Eff.pure_eq_ok.mp h
                      cases heq
                      exact ⟨_, .failed hrows hanswer herrors, adds_refuseAll _ hposted⟩
                  · next herrors =>
                      obtain ⟨heq, rfl⟩ := Eff.pure_eq_ok.mp h
                      cases heq
                      refine ⟨_, .accepted hrows hanswer (by omega), hposted, rfl, ?_, by simp,
                        by simp⟩
                      dsimp only
                      omega
              | unprocessable details reason =>
                  dsimp only at h
                  split at h
                  · next hnamed =>
                      -- the named rows are refused, the others are sent again
                      have hne : (entryReasons details items.length).1 ≠ [] := by
                        simpa using hnamed
                      have hshort := unnamed_shorter hne (entryReasons_index details _)
                      have hids : (inferred.map (·.1) ++
                          (unnamed items (entryReasons details items.length).1).map (·.id)).Nodup :=
                        (((unnamed_sublist _ _).map _).append_left _).nodup hnodup
                      obtain ⟨t, hrest, hadds⟩ := ih (by omega) hids h
                      refine ⟨_, .named hanswer hne hrest, Adds.trans ?_ hadds⟩
                      exact ⟨hposted, rfl, (Int.add_zero _).symm, rejectNamed_has _ _ _, by simp⟩
                  · next hunnamed =>
                      have hnil : (entryReasons details items.length).1 = [] := by
                        simpa using hunnamed
                      split at h
                      · next hrequest =>
                          obtain ⟨heq, rfl⟩ := Eff.pure_eq_ok.mp h
                          cases heq
                          refine ⟨_, .failed hrows hanswer ?_, adds_refuseAll _ hposted⟩
                          exact ⟨hnil, hrequest⟩
                      · next hsilent =>
                          have hnone : entryReasons details items.length = ([], false) :=
                            Prod.ext hnil (by simpa using hsilent)
                          rcases items with - | ⟨e, - | ⟨e', rest⟩⟩
                          · exact absurd rfl hempty
                          · obtain ⟨heq, rfl⟩ := Eff.pure_eq_ok.mp h
                            cases heq
                            refine ⟨_, .guessed hanswer hnone, hposted, rfl,
                              (Int.add_zero _).symm, by simp, ?_⟩
                            have hfresh : e.id ∉ inferred.map (·.1) := by
                              intro hmem
                              exact List.disjoint_of_nodup_append hnodup hmem (by simp)
                            rw [Dict.set_eq_append hfresh]
                            simp
                          · have htwo : 2 ≤ (e :: e' :: rest).length := by simp
                            dsimp only at h
                            generalize e :: e' :: rest = items at *
                            obtain ⟨⟨out₁, inferred₁⟩, w₃, hfirst, h⟩ := Eff.bind_eq_ok.mp h
                            have hfirsts : (items.take (items.length / 2)).length < fuel := by
                              rw [List.length_take]
                              omega
                            have hlasts : (items.drop (items.length / 2)).length < fuel := by
                              rw [List.length_drop]
                              omega
                            obtain ⟨t, ht, hadds⟩ := ih hfirsts
                              ((((List.take_sublist _ _).map _).append_left _).nodup hnodup) hfirst
                            obtain ⟨t', ht', hadds'⟩ := ih hlasts (hadds.fresh ht hnodup) h
                            refine ⟨_, .halves hanswer hnone htwo ht ht',
                              Adds.trans ?_ (hadds.trans hadds')⟩
                            exact ⟨hposted, rfl, (Int.add_zero _).symm, by simp, by simp⟩

theorem anyRefused_ends {e : String} : anyRefused net items w ≠ (.error e, w') := by
  induction items generalizing w with
  | nil => nofun
  | cons i rest ih =>
      rw [anyRefused, Eff.bind_of_ok (rfl : ask (net.quarantined · i) w = (.ok _, _))]
      split
      · nofun
      · exact ih

theorem postLearnings_ends {e : String} : postLearnings net p items w ≠ (.error e, w') := by
  rw [postLearnings, Eff.bind_of_ok (rfl : ask net.contact w = (.ok _, _))]
  split
  · unfold learningsConsented
    split
    · rw [Eff.bind_of_ok (rfl : ask net.learningSharing _ = (.ok _, _))]
      split <;> nofun
    · nofun
  · nofun

theorem send_raises {fuel : Nat} {e : String}
    (h : send net p fuel items out inferred w = (.error e, w')) :
    ∃ tick rows, rows ≠ [] ∧ net.learningsReply tick p.url rows = .unreadable := by
  induction fuel generalizing items out inferred w with
  | zero => cases h
  | succ fuel ih =>
      unfold send at h
      split at h
      · cases h
      · next hempty =>
          rcases Eff.bind_eq_error.mp h with hfirst | ⟨refused, w₁, _, h⟩
          · exact absurd hfirst anyRefused_ends
          · split at h
            · cases h
            · rcases Eff.bind_eq_error.mp h with hsecond | ⟨reply, w₂, hreply, h⟩
              · exact absurd hsecond postLearnings_ends
              · cases reply with
                | raised => cases h
                | refused status reason => cases h
                | ok errors inserted updated skipped =>
                    dsimp only at h
                    split at h <;> cases h
                | unreadable =>
                    rcases postLearnings_ok hreply with ⟨hraised, _⟩ | ⟨tick, hanswer, _⟩
                    · cases hraised
                    · exact ⟨tick, items, by simpa using hempty, hanswer⟩
                | unprocessable details reason =>
                    clear hreply
                    dsimp only at h
                    split at h
                    · exact ih h
                    · split at h
                      · cases h
                      · split at h
                        · cases h
                        · rcases Eff.bind_eq_error.mp h with hhalf | ⟨_, _, _, h⟩
                          · exact ih hhalf
                          · exact ih h

/-! ## One batch -/

/-- What became of the rows of a batch: the requests and their replies, and each row accepted,
failed or rejected. -/
structure Fates (url : String) (items : List Entry) (w w' : Wire) (out : BatchOutcome)
    (sent : List (List Entry × Reply)) (accepted failed rejected : List Entry) : Prop where
  wire : w'.sent = w.sent ++ sent.map fun q => .learnings url q.1 q.2
  once : sent.Pairwise fun q q' => Answered q → ∀ e ∈ q.1, e ∉ q'.1
  rows : (accepted ++ failed ++ rejected).Perm items
  accepted : accepted = (sent.filter (·.2.success)).flatMap (·.1)
  counted : out.pushed + out.skipped = (sent.map (·.2.counted)).sum
  failed : out.failed = failed.length
  rejected : ∀ id, Dict.has out.rejected id = true ↔ id ∈ rejected.map (·.id)

/-- Every row is bad, there is more than one, and no reply names any. -/
def BadUnlocated (bad : Entry → Bool) (items : List Entry) (sent : List (List Entry × Reply)) :
    Prop :=
  (∀ e ∈ items, bad e = true) ∧ 1 < items.length ∧ Unlocated sent

/-- All rows were refused, more than one, and none by a location. -/
def BlamesRequest (items : List Entry) (t : Tally) : Prop :=
  t.guessed.length = items.length ∧ 1 < items.length

instance (items : List Entry) (t : Tally) : Decidable (BlamesRequest items t) :=
  inferInstanceAs (Decidable (_ ∧ _))

theorem Isolates.guessed_all (h : Isolates net p items t) (hall : t.guessed.length = items.length) :
    t.accepted = [] ∧ t.failed = [] ∧ t.named = [] := by
  have hlength := h.rows_perm.length_eq
  simp only [Tally.rows, List.length_append] at hlength
  refine ⟨?_, ?_, ?_⟩
  all_goals
    refine List.length_eq_zero_iff.mp ?_
    omega

theorem sendLearningBatch_tally (hnodup : (items.map (·.id)).Nodup)
    (h : sendLearningBatch net p items w = (.ok out, w')) :
    ∃ t, Isolates net p items t ∧
      Fates p.url items w w' out t.sent t.accepted
        (if BlamesRequest items t then t.guessed else t.failed)
        (if BlamesRequest items t then [] else t.named ++ t.guessed) := by
  unfold sendLearningBatch at h
  obtain ⟨⟨out₁, inferred⟩, w₁, hsend, h⟩ := Eff.bind_eq_ok.mp h
  obtain ⟨t, ht, hadds⟩ := send_isolates (Nat.lt_succ_self _) (by simpa using hnodup) hsend
  have hkeys : inferred.map (·.1) = t.guessed.map (·.id) := by simpa using hadds.inferred
  have hlength : inferred.length = t.guessed.length := by
    simpa using congrArg List.length hkeys
  have honce := (ht.sent_once (hnodup.of_map _)).2
  obtain ⟨haccepted, hcounted⟩ := ht.accepted_eq
  have hrejected (id : String) :
      Dict.has out₁.rejected id = true ↔ id ∈ t.named.map (·.id) := by
    simpa [Dict.has] using hadds.rejected id
  have hcount : out₁.pushed + out₁.skipped = (t.sent.map (·.2.counted)).sum := by
    rw [← hcounted, hadds.counted]
    simp
  refine ⟨t, ht, ?_⟩
  dsimp only at h
  split at h
  · next hall =>
      obtain ⟨rfl, rfl⟩ := Eff.pure_eq_ok.mp h
      have hblame : BlamesRequest items t := ⟨hlength ▸ hall.2.1, hall.2.2⟩
      obtain ⟨hnone, hfailed, hnamed⟩ := ht.guessed_all hblame.1
      have hrows := ht.rows_perm
      rw [if_pos hblame, if_pos hblame]
      rw [Tally.rows, hfailed, hnamed] at hrows
      refine ⟨hadds.sent, honce, by simpa using hrows, haccepted, hcount, ?_, ?_⟩
      · simp [hadds.failed, hfailed, hlength]
      · intro id
        rw [hrejected, hnamed]
  · next hsome =>
      obtain ⟨rfl, rfl⟩ := Eff.pure_eq_ok.mp h
      have hblame : ¬BlamesRequest items t := by
        rintro ⟨hall, hmany⟩
        refine hsome ⟨?_, hlength.trans hall, hmany⟩
        have : inferred ≠ [] := List.ne_nil_of_length_pos (by omega)
        simpa using this
      rw [if_neg hblame, if_neg hblame]
      refine ⟨hadds.sent, honce, ht.rows_perm, haccepted, hcount, by simpa using hadds.failed, ?_⟩
      intro id
      dsimp only
      rw [dict_has_update, hrejected, dict_has_iff inferred, hkeys, List.map_append,
        List.mem_append]

theorem sendLearningBatch_returns (hserver : Isolating net p.url bad) (items : List Entry)
    (w : Wire) :
    ∃ out w', sendLearningBatch net p items w = (.ok out, w') := by
  rcases hrun : sendLearningBatch net p items w with ⟨r, w'⟩
  cases r with
  | ok out => exact ⟨out, w', rfl⟩
  | error e =>
      exfalso
      unfold sendLearningBatch at hrun
      rcases Eff.bind_eq_error.mp hrun with hsend | ⟨⟨out, inferred⟩, w₁, -, hend⟩
      · obtain ⟨tick, rows, hrows, hreply⟩ := send_raises hsend
        by_cases hgood : ∀ e ∈ rows, bad e = false
        · obtain ⟨_, _, _, _, -, -, hok⟩ := hserver.accepts tick rows hrows hgood
          rw [hok] at hreply
          cases hreply
        · obtain ⟨_, _, -, hok⟩ := hserver.refuses tick rows (by simpa using hgood)
          rw [hok] at hreply
          cases hreply
      · dsimp only at hend
        split at hend <;> cases hend

theorem Isolates.unlocated (hserver : Isolating net p.url bad) (h : Isolates net p items t) :
    t.named = [] ↔ Unlocated t.sent := by
  rw [h.named_eq_nil]
  have hpoints (rows : List Entry) (details : List Detail) (reason : String)
      (hmem : (rows, .unprocessable details reason) ∈ t.sent) : PointsAtBad bad rows details := by
    obtain ⟨hrows, tick, hreply⟩ := h.answered _ hmem
    by_cases hgood : ∀ e ∈ rows, bad e = false
    · obtain ⟨_, _, _, _, -, -, hok⟩ := hserver.accepts tick rows hrows hgood
      rw [hok] at hreply
      cases hreply
    · obtain ⟨_, _, hpoints, hok⟩ := hserver.refuses tick rows (by simpa using hgood)
      rw [hok] at hreply
      cases hreply
      exact hpoints
  constructor
  · intro hall rows details reason hmem
    exact (entryReasons_eq_nil (hpoints _ _ _ hmem)).mp (hall _ hmem _ _ rfl)
  · rintro hall ⟨rows, reply⟩ hmem details reason rfl
    exact (entryReasons_eq_nil (hpoints _ _ _ hmem)).mpr (hall _ _ _ hmem)

/-- Every row of a batch has one fate, whatever the server does; and a server that refuses exactly
the requests with a bad row has exactly the bad rows rejected, unless it refuses them all and names
none. -/
theorem batch_isolation (net : Net) (p : Pusher) {items : List Entry}
    (hnodup : (items.map (·.id)).Nodup) (w : Wire) :
    (∀ out w', sendLearningBatch net p items w = (.ok out, w') →
      ∃ sent accepted failed rejected,
        Fates p.url items w w' out sent accepted failed rejected) ∧
    ∀ bad : Entry → Bool, Open net p → Isolating net p.url bad →
      ∃ out w' sent accepted failed rejected,
        sendLearningBatch net p items w = (.ok out, w') ∧
        Fates p.url items w w' out sent accepted failed rejected ∧
        out.pushed + out.skipped = (items.filter (!bad ·)).length ∧
        (BadUnlocated bad items sent →
          out.failed = items.length ∧ ∀ id, Dict.has out.rejected id = false) ∧
        (¬BadUnlocated bad items sent →
          out.failed = 0 ∧ ∀ id, Dict.has out.rejected id = true ↔
            id ∈ (items.filter bad).map (·.id)) := by
  refine ⟨fun out w' hrun => ?_, fun bad hopen hserver => ?_⟩
  · obtain ⟨t, -, hfates⟩ := sendLearningBatch_tally hnodup hrun
    exact ⟨_, _, _, _, hfates⟩
  · obtain ⟨out, w', hrun⟩ := sendLearningBatch_returns hserver items w
    obtain ⟨t, ht, hfates⟩ := sendLearningBatch_tally hnodup hrun
    obtain ⟨hfailed, hgood, hnamed, hguessed, hcounted⟩ := ht.finds hopen hserver
    have hrefused : ∀ e ∈ t.named ++ t.guessed, bad e = true := fun e he =>
      (List.mem_append.mp he).elim (hnamed e) (hguessed e)
    have hrows := ht.rows_perm
    rw [Tally.rows, hfailed, List.append_nil] at hrows
    have haccepted : t.accepted.Perm (items.filter (!bad ·)) := by
      have h := hrows.filter (!bad ·)
      rw [List.filter_append, List.filter_eq_self.mpr (by simpa using hgood),
        List.filter_eq_nil_iff.mpr (by simpa using hrefused), List.append_nil] at h
      exact h
    have hbad : (t.named ++ t.guessed).Perm (items.filter bad) := by
      have h := hrows.filter bad
      rw [List.filter_append, List.filter_eq_self.mpr hrefused,
        List.filter_eq_nil_iff.mpr (by simpa using hgood), List.nil_append] at h
      exact h
    have hblame : BlamesRequest items t ↔ BadUnlocated bad items t.sent := by
      rw [BlamesRequest, BadUnlocated, ← ht.unlocated hserver]
      have hlength := hrows.length_eq
      simp only [List.length_append] at hlength
      constructor
      · rintro ⟨hall, hmany⟩
        obtain ⟨-, -, hnone⟩ := ht.guessed_all hall
        refine ⟨fun e he => ?_, hmany, hnone⟩
        refine hguessed e ?_
        rw [List.length_eq_zero_iff.mp (by omega : t.accepted.length = 0), hnone] at hrows
        exact hrows.mem_iff.mpr he
      · rintro ⟨hall, hmany, hnone⟩
        have hempty : t.accepted = [] := by
          rw [List.eq_nil_iff_forall_not_mem]
          intro e he
          have := hall e (hrows.mem_iff.mp (List.mem_append_left _ he))
          rw [hgood e he] at this
          cases this
        rw [hempty, hnone] at hlength
        exact ⟨by simpa using hlength, hmany⟩
    refine ⟨out, w', t.sent, _, _, _, hrun, hfates, ?_, fun hall => ?_, fun hsome => ?_⟩
    · rw [hfates.counted, ← ht.accepted_eq.2, hcounted, haccepted.length_eq]
    · have hblamed := hblame.mpr hall
      have hfate := hfates.failed
      have hrejected := hfates.rejected
      rw [if_pos hblamed] at hfate
      refine ⟨hfate.trans hblamed.1, fun id => ?_⟩
      have := hrejected id
      rw [if_pos hblamed] at this
      simpa using this
    · have hblamed := mt hblame.mp hsome
      have hfate := hfates.failed
      rw [if_neg hblamed, hfailed] at hfate
      refine ⟨hfate, fun id => ?_⟩
      have hrejected := hfates.rejected id
      rw [if_neg hblamed] at hrejected
      rw [hrejected, (hbad.map _).mem_iff]

end

/-- A server that refuses a request with a bad row without a location. -/
def refusingNet (bad : Entry → Bool) : Net :=
  { sampleNet true with
    learningsReply := fun _ _ items =>
      if items.any bad then .unprocessable [] "HTTP 422: no detail" else .ok 0 items.length 0 0 }

theorem refusingNet_isolating (url : String) (bad : Entry → Bool) :
    Isolating (refusingNet bad) url bad where
  accepts tick items _ hgood := by
    refine ⟨0, items.length, 0, 0, le_refl 0, by simp, ?_⟩
    simpa [refusingNet] using hgood
  refuses tick items hbad := by
    refine ⟨[], "HTTP 422: no detail", by simp [PointsAtBad], ?_⟩
    simpa [refusingNet] using hbad

/-- The second of three rows is refused, without a location. -/
theorem batch_isolation_sample :
    ∃ out w', sendLearningBatch (refusingNet (·.id == "L-2"))
        ⟨"http://localhost:8000", 100, true, true⟩ [⟨"L-1", 1⟩, ⟨"L-2", 2⟩, ⟨"L-3", 3⟩] ⟨0, []⟩ =
          (.ok out, w') ∧
      out.pushed + out.skipped = 2 ∧ out.failed = 0 ∧
      ∀ id, Dict.has out.rejected id = true ↔ id = "L-2" := by
  obtain ⟨-, hall⟩ := batch_isolation (refusingNet (·.id == "L-2"))
    ⟨"http://localhost:8000", 100, true, true⟩
    (show ([⟨"L-1", 1⟩, ⟨"L-2", 2⟩, ⟨"L-3", 3⟩].map Entry.id).Nodup by decide) ⟨0, []⟩
  obtain ⟨out, w', sent, _, _, _, hrun, -, hcount, -, hsome⟩ :=
    hall (·.id == "L-2") ⟨fun _ => rfl, rfl, fun _ => rfl, fun _ _ => rfl⟩
      (refusingNet_isolating _ _)
  obtain ⟨hfailed, hrejected⟩ := hsome fun hbad => absurd hbad.1 (by decide)
  refine ⟨out, w', hrun, hcount, hfailed, fun id => (hrejected id).trans ?_⟩
  rw [show ([⟨"L-1", 1⟩, ⟨"L-2", 2⟩, ⟨"L-3", 3⟩].filter (·.id == "L-2")).map Entry.id = ["L-2"]
    by decide]
  exact List.mem_singleton

/-! ## How many requests isolation takes -/

section

variable {net : Net} {p : Pusher} {items : List Entry} {t : Tally} {bad : Entry → Bool}

theorem exists_mem_namedRows {details : List Detail}
    (names : (entryReasons details items.length).1 ≠ []) :
    ∃ e, e ∈ namedRows items (entryReasons details items.length).1 := by
  obtain ⟨m, hm⟩ := List.exists_mem_of_ne_nil _ names
  have hm' : m.1 < items.length := entryReasons_index _ _ m hm
  exact ⟨_, mem_namedRows_iff.mpr ⟨m, hm, List.getElem?_eq_getElem hm'⟩⟩

/-- Whatever the server answers: a further request is owed to a named row or to a split. -/
theorem Isolates.sent_length (h : Isolates net p items t) :
    t.sent.length ≤ 2 * items.length - 1 := by
  induction h with
  | nil => simp
  | unsent _ => simp
  | failed some_ _ _ | accepted some_ _ _ =>
      have hlength := List.length_pos_of_ne_nil some_
      simp only [List.length_singleton]
      omega
  | guessed _ _ => simp
  | @named items _ details _ _ _ names _ ih =>
      have hperm := (named_unnamed items (entryReasons details items.length).1).length_eq
      obtain ⟨e, he⟩ := exists_mem_namedRows names
      have hnamed := List.length_pos_of_mem he
      simp only [Tally.append, List.length_append, List.length_singleton] at hperm ⊢
      omega
  | halves _ _ many _ _ ih ih' =>
      simp only [List.length_take, List.length_drop] at ih ih'
      simp only [Tally.append, List.length_append, List.length_singleton]
      omega

theorem Isolating.bad_of_unprocessable (hserver : Isolating net p.url bad) (hitems : items ≠ [])
    {tick : Nat} {details : List Detail} {reason : String}
    (answer : net.learningsReply tick p.url items = .unprocessable details reason) :
    (∃ e ∈ items, bad e = true) ∧ PointsAtBad bad items details := by
  by_cases hgood : ∀ e ∈ items, bad e = false
  · obtain ⟨_, _, _, _, -, -, hok⟩ := hserver.accepts tick items hitems hgood
    rw [hok] at answer
    cases answer
  · have hbad : ∃ e ∈ items, bad e = true := by simpa using hgood
    obtain ⟨_, _, hpoints, hreply⟩ := hserver.refuses tick items hbad
    rw [hreply] at answer
    cases answer
    exact ⟨hbad, hpoints⟩

/-- A split halves the rows, and only a list with a bad row is split. -/
theorem Isolates.sent_length_of_isolating (hopen : Open net p)
    (hserver : Isolating net p.url bad) (h : Isolates net p items t) :
    t.sent.length ≤ 1 + 2 * (items.countP bad * Nat.clog 2 items.length) := by
  induction h with
  | nil => simp
  | unsent shut => exact absurd hopen shut
  | failed _ _ _ | accepted _ _ _ | guessed _ _ => exact Nat.le_add_right 1 _
  | @named items _ details _ t answer names rest ih =>
      obtain ⟨e, he⟩ := exists_mem_namedRows names
      have hperm := named_unnamed items (entryReasons details items.length).1
      have hlength := hperm.length_eq
      have hcount := hperm.countP_eq bad
      rw [List.length_append] at hlength
      rw [List.countP_append] at hcount
      have hitems : items ≠ [] := List.ne_nil_of_mem (hperm.mem_iff.mpr (List.mem_append_left _ he))
      have hnamed : 1 ≤ (namedRows items (entryReasons details items.length).1).countP bad := by
        obtain ⟨m, hm, hget⟩ := mem_namedRows_iff.mp he
        obtain ⟨e', hget', hbad⟩ :=
          (entryReasons_points (hserver.bad_of_unprocessable hitems answer).2).2 m hm
        rw [hget] at hget'
        cases hget'
        exact List.one_le_countP_iff.mpr ⟨e, he, hbad⟩
      generalize unnamed items (entryReasons details items.length).1 = rest' at *
      simp only [Tally.append, List.length_append, List.length_singleton]
      by_cases hrest : rest' = []
      · have hnone := rest.sent_length
        rw [hrest] at hnone
        simp only [List.length_nil, Nat.mul_zero, Nat.zero_sub, Nat.le_zero] at hnone
        omega
      · have hrest' := List.length_pos_of_ne_nil hrest
        have hnamed' := List.length_pos_of_mem he
        have hdepth : 1 ≤ Nat.clog 2 items.length := Nat.clog_pos (by omega) (by omega)
        have hmono : Nat.clog 2 rest'.length ≤ Nat.clog 2 items.length :=
          Nat.clog_mono_right 2 (by omega)
        have hsent := ih.trans (Nat.add_le_add_left (Nat.mul_le_mul_left 2
          (Nat.mul_le_mul_left _ hmono)) 1)
        have hone := Nat.mul_le_mul hnamed hdepth
        rw [hcount, Nat.add_mul]
        omega
  | @halves items _ _ _ t t' answer _ many _ _ ih ih' =>
      have hitems : items ≠ [] := List.ne_nil_of_length_pos (by omega)
      have hbad : 1 ≤ items.countP bad := by
        simpa [List.one_le_countP_iff] using (hserver.bad_of_unprocessable hitems answer).1
      have hcount : items.countP bad = (items.take (items.length / 2)).countP bad +
          (items.drop (items.length / 2)).countP bad := by
        rw [← List.countP_append, List.take_append_drop]
      have hdepth := Nat.clog_of_two_le (b := 2) (by omega) many
      generalize hhalf : Nat.clog 2 ((items.length + 2 - 1) / 2) = half at hdepth
      have hfirst : Nat.clog 2 (items.take (items.length / 2)).length ≤ half := by
        rw [← hhalf, List.length_take]
        exact Nat.clog_mono_right 2 (by omega)
      have hlast : Nat.clog 2 (items.drop (items.length / 2)).length ≤ half := by
        rw [← hhalf, List.length_drop]
        exact Nat.clog_mono_right 2 (by omega)
      have hsent := ih.trans (Nat.add_le_add_left (Nat.mul_le_mul_left 2
        (Nat.mul_le_mul_left _ hfirst)) 1)
      have hsent' := ih'.trans (Nat.add_le_add_left (Nat.mul_le_mul_left 2
        (Nat.mul_le_mul_left _ hlast)) 1)
      simp only [Tally.append, List.length_append, List.length_singleton]
      rw [hdepth, Nat.mul_add, Nat.mul_one, hcount, Nat.add_mul]
      omega

/-- Whatever the server answers, a batch of `n` rows takes fewer than `2 * n` requests; a server
that refuses exactly the requests with a bad row is asked once, and twice more for each bad row and
each halving it takes to come down to one row. -/
theorem batch_requests (net : Net) (p : Pusher) {items : List Entry}
    (hnodup : (items.map (·.id)).Nodup) {w w' : Wire} {out : BatchOutcome}
    (h : sendLearningBatch net p items w = (.ok out, w')) :
    ∃ requests, w'.sent = w.sent ++ requests ∧ requests.length ≤ 2 * items.length - 1 ∧
      ∀ bad, Open net p → Isolating net p.url bad →
        requests.length ≤ 1 + 2 * (items.countP bad * Nat.clog 2 items.length) := by
  obtain ⟨t, ht, hfates⟩ := sendLearningBatch_tally hnodup h
  refine ⟨_, hfates.wire, ?_, fun bad hopen hserver => ?_⟩
  · rw [List.length_map]
    exact ht.sent_length
  · rw [List.length_map]
    exact ht.sent_length_of_isolating hopen hserver

end

theorem batch_requests_sample :
    ∃ out w', sendLearningBatch (refusingNet (·.id == "L-2"))
        ⟨"http://localhost:8000", 100, true, true⟩ [⟨"L-1", 1⟩, ⟨"L-2", 2⟩, ⟨"L-3", 3⟩] ⟨0, []⟩ =
          (.ok out, w') ∧ w'.sent.length ≤ 5 := by
  obtain ⟨out, w', hrun⟩ := sendLearningBatch_returns
    (p := ⟨"http://localhost:8000", 100, true, true⟩)
    (refusingNet_isolating "http://localhost:8000" (·.id == "L-2"))
    [⟨"L-1", 1⟩, ⟨"L-2", 2⟩, ⟨"L-3", 3⟩] ⟨0, []⟩
  obtain ⟨requests, hsent, hlength, -⟩ := batch_requests _ _ (by decide) hrun
  refine ⟨out, w', hrun, ?_⟩
  rw [hsent]
  exact hlength

end TrwMcp.Sync
