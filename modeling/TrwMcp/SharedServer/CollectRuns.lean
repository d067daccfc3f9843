import TrwMcp.Lib.Exec
import TrwMcp.SharedServer.Collect

/-!
# What a collection spares

A build and a collection of one base version exclude each other by its lock. From the moment a
collection finds that the map does not name a venv, nothing may begin to use it; and what the map
does not name must not be in use.
-/

set_option linter.unusedSectionVars false

namespace TrwMcp.SharedServer

open Lib

/-! ## Names -/

theorem not_mem_takeWhile_plus (cs : List Char) : '+' ∉ cs.takeWhile (· ≠ '+') := by
  intro h
  simpa using List.mem_takeWhile_imp h

theorem isVenvName_of_match {name : String} {m : List Char × Option (List Char)}
    (h : venvName name = some m) : IsVenvName name := by
  unfold venvName at h
  split at h
  · cases h
  · next rest hrest =>
      have hname : name.toList = venvMark ++ rest :=
        (List.isPrefixOf?_eq_some_iff_append_eq.mp hrest).symm
      dsimp only at h
      -- the newline that may follow
      obtain ⟨body, nl, hbody, hnl, hplus⟩ : ∃ body nl, rest = body ++ nl ∧
          (if rest.getLast? = some '\n' then rest.dropLast else rest) = body ∧ '+' ∉ nl := by
        split
        · next hlast =>
            exact ⟨_, ['\n'], (List.dropLast_append_getLast? _ hlast).symm, rfl, by decide⟩
        · exact ⟨rest, [], (List.append_nil rest).symm, rfl, List.not_mem_nil⟩
      rw [hnl] at h
      have hsplit : body = body.takeWhile (· ≠ '+') ++ body.dropWhile (· ≠ '+') :=
        (List.takeWhile_append_dropWhile ..).symm
      split at h
      · cases h
      · split at h
        · next htail =>
            rw [htail, List.append_nil] at hsplit
            refine ⟨rest, ?_, .inl hname⟩
            rw [hbody, List.mem_append, not_or, hsplit]
            exact ⟨not_mem_takeWhile_plus _, hplus⟩
        · next tail htail =>
            split at h
            · next tag htag =>
                have htag := List.isPrefixOf?_eq_some_iff_append_eq.mp htag
                refine ⟨body.takeWhile (· ≠ '+'), not_mem_takeWhile_plus _, .inr ⟨tag ++ nl, ?_⟩⟩
                rw [hname, hbody]
                conv_lhs => rw [hsplit, ← htag]
                simp [List.append_assoc]
            · cases h

theorem isPrefixOf_distillMark {c : Char} (cs : List Char) (hc : c ≠ '+') :
    distillMark.isPrefixOf (c :: cs) = false := by
  have hmark : distillMark = '+' :: "distill-".toList := by decide
  rw [hmark, List.isPrefixOf_cons_cons, beq_eq_false_iff_ne.mpr hc.symm, Bool.false_and]

theorem beforeMark_of_not_mem {cs : List Char} (h : '+' ∉ cs) : beforeMark cs = cs := by
  induction cs with
  | nil => rfl
  | cons c cs ih =>
      have hc : c ≠ '+' := fun heq => h (heq ▸ List.mem_cons_self)
      rw [beforeMark, ih fun hmem => h (List.mem_cons_of_mem _ hmem),
        isPrefixOf_distillMark cs hc, if_neg Bool.false_ne_true]

theorem beforeMark_append {cs : List Char} (h : '+' ∉ cs) (tag : List Char) :
    beforeMark (cs ++ distillMark ++ tag) = cs := by
  induction cs with
  | nil => rfl
  | cons c cs ih =>
      have hc : c ≠ '+' := fun heq => h (heq ▸ List.mem_cons_self)
      rw [List.cons_append, List.cons_append, beforeMark,
        ih fun hmem => h (List.mem_cons_of_mem _ hmem), isPrefixOf_distillMark _ hc,
        if_neg Bool.false_ne_true]

theorem beforeMark_targetName {version : String} (h : '+' ∉ version.toList)
    (fork : Option String) :
    beforeMark (targetName version fork).toList = venvMark ++ version.toList := by
  have hbase : '+' ∉ venvMark ++ version.toList := by
    rw [List.mem_append, not_or]
    exact ⟨by decide, h⟩
  unfold targetName
  rw [String.toList_ofList]
  cases fork with
  | none =>
      rw [List.append_nil]
      exact beforeMark_of_not_mem hbase
  | some tag =>
      rw [← List.append_assoc]
      exact beforeMark_append hbase _

theorem plus_not_mem_of_env {version : String} (h : version.toList.all isEnvChar = true) :
    '+' ∉ version.toList := by
  intro hmem
  have hplus := List.all_eq_true.mp h _ hmem
  exact absurd hplus (by decide)

/-! ## The invariant -/

section

variable {A P : Type} [DecidableEq A] [DecidableEq P]

/-- The lock a stage holds. -/
def ShareStage.key : ShareStage P → Option (String × List Char)
  | .building _ env version => some (env, venvMark ++ version.toList)
  | .locked _ env name _ | .checked _ env name _ | .emptying _ env name _ _
  | .emptied _ env name _ => some (env, beforeMark name.toList)
  | _ => none

/-- The venv a collection has found unused. -/
def ShareStage.doomed : ShareStage P → Option Venv
  | .checked _ env name _ | .emptying _ env name _ _ | .emptied _ env name _ => some ⟨env, name⟩
  | _ => none

/-- What a stage keeps with it. -/
def ShareStage.Holds : ShareStage P → Prop
  | .building _ _ version => '+' ∉ version.toList
  | .chosen _ _ python (some v) | .mapping _ _ python (some v) _ => python.home = some v
  | .collecting _ _ todo => ∀ name ∈ todo, IsVenvName name
  | .locked _ _ name todo | .checked _ _ name todo | .emptied _ _ name todo =>
      IsVenvName name ∧ ∀ name ∈ todo, IsVenvName name
  | .emptying _ _ name cfg todo =>
      cfg.any isHomeLine = true ∧ IsVenvName name ∧ ∀ name ∈ todo, IsVenvName name
  | _ => True

structure ShareInv (w : ShareWorld A P) : Prop where
  locked : ∀ a s key, w.stages a = some s → s.key = some key → w.locks key = some a
  spared : ∀ a s v, w.stages a = some s → s.doomed = some v → ¬ w.InUse v
  stages : ∀ a s, w.stages a = some s → s.Holds

/-- No collection is between its look at the map and the end of its removal of a venv. -/
def ShareWorld.Untouched (w : ShareWorld A P) (v : Venv) : Prop :=
  ∀ a s, w.stages a = some s → s.doomed ≠ some v

/-- A venv in use is named by the map a collection reads, and a map that is written, or a server
that starts, needs no venv that a collection is removing. -/
def RegularShareStage (envsDir : List String) (w : ShareWorld A P) : ShareStage P → Prop
  | .locked p env name _ => w.InUse ⟨env, name⟩ → name ∈ referenced envsDir (w.maps p) env
  | .mapping _ _ python built read =>
      (∀ m ∈ read, ∀ v, m.2.home = some v → w.Untouched v) ∧
        (built = none → ∀ v, python.home = some v → w.Untouched v)
  | .starting _ _ _ _ python => ∀ v, python.home = some v → w.Untouched v
  | _ => True

def RegularShare (envsDir : List String) (w : ShareWorld A P) : ShareDeed A P → Prop
  | .act a _ => ∀ s, w.stages a = some s → RegularShareStage envsDir w s
  | _ => True

/-! ## Steps -/

theorem ShareInv.step {w v : ShareWorld A P} (h : ShareInv w) {a : A}
    {stage : Option (ShareStage P)} (hstages : v.stages = Function.update w.stages a stage)
    (hlocks : ∀ b, b ≠ a → ∀ key, w.locks key = some b → v.locks key = some b)
    (hlocked : ∀ s key, stage = some s → s.key = some key → v.locks key = some a)
    (huse : ∀ x, v.InUse x → w.InUse x ∨ ∀ b s, b ≠ a → w.stages b = some s → s.doomed ≠ some x)
    (hspared : ∀ s x, stage = some s → s.doomed = some x → ¬ v.InUse x)
    (hown : ∀ s, stage = some s → s.Holds) : ShareInv v := by
  have hcases : ∀ b s, v.stages b = some s →
      (b = a ∧ stage = some s) ∨ (b ≠ a ∧ w.stages b = some s) := by
    intro b s hb
    rw [hstages, Function.update_apply] at hb
    split at hb
    · next heq => exact .inl ⟨heq, hb⟩
    · next hne => exact .inr ⟨hne, hb⟩
  refine ⟨fun b s key hb hkey => ?_, fun b s x hb hx hin => ?_, fun b s hb => ?_⟩
  · rcases hcases b s hb with ⟨rfl, hs⟩ | ⟨hne, hs⟩
    · exact hlocked s key hs hkey
    · exact hlocks b hne key (h.locked b s key hs hkey)
  · rcases hcases b s hb with ⟨rfl, hs⟩ | ⟨hne, hs⟩
    · exact hspared s x hs hx hin
    · rcases huse x hin with hold | hfree
      · exact h.spared b s x hs hx hold
      · exact hfree b s hne hs hx
  · rcases hcases b s hb with ⟨rfl, hs⟩ | ⟨hne, hs⟩
    · exact hown s hs
    · exact h.stages b s hs

theorem ShareWorld.InUse.of_update {w v : ShareWorld A P} {a : A} {stage : Option (ShareStage P)}
    (hstages : v.stages = Function.update w.stages a stage) (hmaps : v.maps = w.maps)
    (hlive : ∀ server ∈ v.live, server ∈ w.live)
    (hgiven : ∀ s x, stage = some s → s.given = some x →
      ∃ s₀, w.stages a = some s₀ ∧ s₀.given = some x) {x : Venv} (hin : v.InUse x) : w.InUse x := by
  rcases hin with ⟨p, m, hm, hx⟩ | ⟨b, s, hb, hx⟩ | ⟨server, hserver, hx⟩
  · rw [hmaps] at hm
    exact .inl ⟨p, m, hm, hx⟩
  · rw [hstages, Function.update_apply] at hb
    split at hb
    · obtain ⟨s₀, hs₀, hgiven₀⟩ := hgiven s x hb hx
      exact .inr (.inl ⟨a, s₀, hs₀, hgiven₀⟩)
    · exact .inr (.inl ⟨b, s, hb, hx⟩)
  · exact .inr (.inr ⟨server, hlive server hserver, hx⟩)

theorem locks_release {w : ShareWorld A P} {a b : A} (hne : b ≠ a) {key : String × List Char}
    (h : w.locks key = some b) : (if w.locks key = some a then none else w.locks key) = some b := by
  rw [h, if_neg fun heq => hne (Option.some.inj heq)]

theorem ShareInv.goOn {w v : ShareWorld A P} (h : ShareInv w) {a : A} {s₀ s : ShareStage P}
    (hs₀ : w.stages a = some s₀) (hstages : v.stages = Function.update w.stages a (some s))
    (hmaps : v.maps = w.maps) (hlive : v.live = w.live) (hlocks : v.locks = w.locks)
    (hkey : ∀ key, s.key = some key → s₀.key = some key)
    (hgiven : ∀ x, s.given = some x → s₀.given = some x)
    (hdoomed : ∀ x, s.doomed = some x → ¬ w.InUse x) (hown : s.Holds) : ShareInv v := by
  have huse : ∀ x, v.InUse x → w.InUse x := fun _ hx => hx.of_update hstages hmaps
    (fun server hserver => hlive ▸ hserver)
    fun s' x hs' hx => ⟨s₀, hs₀, hgiven x (Option.some.inj hs' ▸ hx)⟩
  refine h.step hstages (fun b _ key hb => hlocks ▸ hb) (fun s' key hs' hkey' => ?_)
    (fun x hx => .inl (huse x hx)) (fun s' x hs' hx hin => ?_) fun s' hs' => ?_
  · rw [hlocks]
    exact h.locked a s₀ key hs₀ (hkey key (Option.some.inj hs' ▸ hkey'))
  · exact hdoomed x (Option.some.inj hs' ▸ hx) (huse x hin)
  · exact Option.some.inj hs' ▸ hown

theorem ShareInv.leave {w v : ShareWorld A P} (h : ShareInv w) {a : A}
    {stage : Option (ShareStage P)} (hstages : v.stages = Function.update w.stages a stage)
    (hmaps : v.maps = w.maps) (hlive : ∀ server ∈ v.live, server ∈ w.live)
    (hlocks : v.locks = fun key => if w.locks key = some a then none else w.locks key)
    (hidle : ∀ s, stage = some s → s.key = none ∧ s.doomed = none ∧ s.given = none ∧ s.Holds) :
    ShareInv v := by
  have huse : ∀ x, v.InUse x → w.InUse x := fun _ hx => hx.of_update hstages hmaps hlive
    fun s x hs hx => by
      rw [(hidle s hs).2.2.1] at hx
      cases hx
  refine h.step hstages (fun b hne key hb => ?_) (fun s key hs hkey => ?_)
    (fun x hx => .inl (huse x hx)) (fun s x hs hx => ?_) fun s hs => (hidle s hs).2.2.2
  · rw [hlocks]
    exact locks_release hne hb
  · rw [(hidle s hs).1] at hkey
    cases hkey
  · rw [(hidle s hs).2.1] at hx
    cases hx

theorem ShareInv.setStage {w : ShareWorld A P} (h : ShareInv w) {a : A}
    {stage : Option (ShareStage P)}
    (hidle : ∀ s, stage = some s → s.key = none ∧ s.doomed = none ∧ s.Holds ∧
      ∀ x, s.given = some x → ∃ s₀, w.stages a = some s₀ ∧ s₀.given = some x) :
    ShareInv (w.setStage a stage) := by
  have huse : ∀ x, (w.setStage a stage).InUse x → w.InUse x := by
    intro x hx
    have hstages : (w.setStage a stage).stages = Function.update w.stages a stage := rfl
    exact hx.of_update hstages rfl (fun _ hserver => hserver) fun s x hs hx =>
      (hidle s hs).2.2.2 x hx
  refine h.step rfl (fun b _ key hb => hb) (fun s key hs hkey => ?_)
    (fun x hx => .inl (huse x hx)) (fun s x hs hx => ?_) fun s hs => (hidle s hs).2.2.1
  · rw [(hidle s hs).1] at hkey
    cases hkey
  · rw [(hidle s hs).2.1] at hx
    cases hx

theorem ShareInv.lock {w v : ShareWorld A P} (h : ShareInv w) {a : A} {key : String × List Char}
    {s : ShareStage P} (hv : w.lock a key s = some v) (hkey : s.key = some key)
    (hdoomed : s.doomed = none) (hgiven : s.given = none) (hown : s.Holds) : ShareInv v := by
  unfold ShareWorld.lock at hv
  split at hv
  · next hfree =>
      obtain rfl := Option.some.inj hv
      refine h.step rfl (fun b hne key' hb => ?_) (fun s' key' hs' hkey' => ?_)
        (fun x hx => .inl ?_) (fun s' x hs' hx => ?_) fun s' hs' => Option.some.inj hs' ▸ hown
      · have hne' : key' ≠ key := by
          rintro rfl
          rw [hfree] at hb
          cases hb
        exact (Function.update_of_ne hne' _ _).trans hb
      · rw [← Option.some.inj hs', hkey] at hkey'
        rw [← Option.some.inj hkey']
        exact Function.update_self ..
      · generalize hv : ({ w with
          locks := Function.update w.locks key (some a)
          stages := Function.update w.stages a (some s) } : ShareWorld A P) = v at hx
        have hstages : v.stages = Function.update w.stages a (some s) := by
          subst hv
          rfl
        subst hv
        refine hx.of_update hstages rfl (fun _ hserver => hserver) fun s' x hs' hx => ?_
        rw [← Option.some.inj hs', hgiven] at hx
        cases hx
      · rw [← Option.some.inj hs', hdoomed] at hx
        cases hx
  · cases hv

theorem ShareInv.built {w : ShareWorld A P} (h : ShareInv w) (envsDir : List String) (a : A)
    (fork : Option String) (files : Nat) (works : Bool) :
    ShareInv (w.built envsDir a fork files works) := by
  unfold ShareWorld.built
  split
  · next p env version hs =>
      dsimp only
      split
      · exact h.leave rfl rfl (fun _ hserver => hserver) rfl fun _ hs' => by cases hs'
      · have hversion : '+' ∉ version.toList := h.stages a _ hs
        have hkey := h.locked a _ _ hs rfl
        have hfree : ∀ b s', b ≠ a → w.stages b = some s' →
            s'.doomed ≠ some ⟨env, targetName version fork⟩ := by
          intro b s' hne hb hdoomed
          have hlock : w.locks (env, venvMark ++ version.toList) = some b := by
            rw [← beforeMark_targetName hversion fork]
            refine h.locked b s' _ hb ?_
            cases s' with
            | checked _ _ _ _ | emptying _ _ _ _ _ | emptied _ _ _ _ =>
                obtain ⟨rfl, rfl⟩ := Venv.mk.inj (Option.some.inj hdoomed)
                rfl
            | building | chosen | mapping | recorded | collecting | locked | starting =>
                cases hdoomed
          exact hne (Option.some.inj (hlock.symm.trans hkey))
        refine h.step rfl (fun b hne key hb => locks_release hne hb)
          (fun s' key hs' hkey' => ?_) (fun x hx => ?_) (fun s' x hs' hx => ?_) fun s' hs' => ?_
        · rw [← Option.some.inj hs'] at hkey'
          cases hkey'
        · by_cases hx' : x = ⟨env, targetName version fork⟩
          · exact .inr (hx' ▸ hfree)
          · refine .inl ?_
            rcases hx with ⟨q, m, hm, hmx⟩ | ⟨b, s', hb, hgiven⟩ | ⟨server, hserver, hsx⟩
            · exact .inl ⟨q, m, hm, hmx⟩
            · simp only [ShareWorld.release, Function.update_apply] at hb
              split at hb
              · obtain rfl := Option.some.inj hb
                exact absurd (Option.some.inj hgiven).symm hx'
              · exact .inr (.inl ⟨b, s', hb, hgiven⟩)
            · exact .inr (.inr ⟨server, hserver, hsx⟩)
        · rw [← Option.some.inj hs'] at hx
          cases hx
        · obtain rfl := Option.some.inj hs'
          rfl
  · exact h

theorem ShareInv.record {w : ShareWorld A P} (h : ShareInv w) {a : A} {p : P} {env : String}
    {python : Interpreter} {built : Option Venv} {read : Dict String Interpreter}
    (hs : w.stages a = some (.mapping p env python built read))
    (hread : ∀ m ∈ read, ∀ v, m.2.home = some v → w.Untouched v)
    (hpython : built = none → ∀ v, python.home = some v → w.Untouched v) :
    ShareInv ({ w with maps := Function.update w.maps p (Dict.set read env python) }.setStage a
      (some (.recorded p env built))) := by
  refine h.step rfl (fun b _ key hb => hb) (fun s' key hs' hkey => ?_) (fun x hx => ?_)
    (fun s' x hs' hx => ?_) fun s' hs' => ?_
  · rw [← Option.some.inj hs'] at hkey
    cases hkey
  · rcases hx with ⟨q, m, hm, hmx⟩ | ⟨b, s', hb, hgiven⟩ | ⟨server, hserver, hsx⟩
    · simp only [ShareWorld.setStage, Function.update_apply] at hm
      split at hm
      · rcases Dict.mem_of_mem_set hm with rfl | hold
        · cases built with
          | none => exact .inr fun b s' _ hb => hpython rfl x hmx b s' hb
          | some v =>
              -- what was built was in use before
              have hhome : python.home = some v := h.stages a _ hs
              obtain rfl := Option.some.inj (hhome.symm.trans hmx)
              exact .inl (.inr (.inl ⟨a, _, hs, rfl⟩))
        · exact .inr fun b s' _ hb => hread m hold x hmx b s' hb
      · exact .inl (.inl ⟨q, m, hm, hmx⟩)
    · refine .inl ?_
      simp only [ShareWorld.setStage, Function.update_apply] at hb
      split at hb
      · obtain rfl := Option.some.inj hb
        exact .inr (.inl ⟨a, _, hs, hgiven⟩)
      · exact .inr (.inl ⟨b, s', hb, hgiven⟩)
    · exact .inl (.inr (.inr ⟨server, hserver, hsx⟩))
  · rw [← Option.some.inj hs'] at hx
    cases hx
  · obtain rfl := Option.some.inj hs'
    trivial

theorem ShareInv.started {w v : ShareWorld A P} (h : ShareInv w) {a : A} {python : Interpreter}
    (hfree : ∀ x, python.home = some x → w.Untouched x) (hmaps : v.maps = w.maps)
    (hlocks : v.locks = w.locks) (hstages : v.stages = Function.update w.stages a none)
    (hlive : ∀ server ∈ v.live, server ∈ w.live ∨ server.home = python.home) : ShareInv v := by
  refine h.step hstages (fun b _ key hb => hlocks ▸ hb) (fun _ _ hs' => (nomatch hs'))
    (fun x hx => ?_) (fun _ _ hs' => (nomatch hs')) fun _ hs' => (nomatch hs')
  rcases hx with ⟨q, m, hm, hmx⟩ | ⟨b, s', hb, hgiven⟩ | ⟨server, hserver, hsx⟩
  · rw [hmaps] at hm
    exact .inl (.inl ⟨q, m, hm, hmx⟩)
  · rw [hstages, Function.update_apply] at hb
    split at hb
    · cases hb
    · exact .inl (.inr (.inl ⟨b, s', hb, hgiven⟩))
  · rcases hlive server hserver with hold | hnew
    · exact .inl (.inr (.inr ⟨server, hold, hsx⟩))
    · exact .inr fun b s' _ hb => hfree x (hnew.symm.trans hsx) b s' hb

/-! ## Runs -/

theorem ShareInv.act {w : ShareWorld A P} (h : ShareInv w) {envsDir : List String} {a : A}
    {s : ShareStage P} (works : Bool) (hs : w.stages a = some s)
    (hregular : RegularShareStage envsDir w s) : ShareInv (w.act envsDir a works s) := by
  have hown := h.stages a s hs
  have hend : ShareInv (w.setStage a none) := h.setStage fun _ hs' => (nomatch hs')
  -- back to the names that are left, without the lock
  have hnext : ∀ p env todo, (∀ name ∈ todo, IsVenvName name) →
      ShareInv (w.release a (some (.collecting p env todo))) := by
    intro p env todo htodo
    refine h.leave rfl rfl (fun _ hserver => hserver) rfl fun s' hs' => ?_
    obtain rfl := Option.some.inj hs'
    exact ⟨rfl, rfl, rfl, htodo⟩
  cases s with
  | building p env version => exact h
  | chosen p env python built =>
      rw [ShareWorld.act]
      split
      · refine h.setStage fun s' hs' => ?_
        obtain rfl := Option.some.inj hs'
        refine ⟨rfl, rfl, ?_, fun x hx => ⟨_, hs, hx⟩⟩
        cases built with
        | none => trivial
        | some v => exact hown
      · exact hend
  | mapping p env python built read =>
      rw [ShareWorld.act]
      split
      · exact h.record hs hregular.1 hregular.2
      · exact hend
  | recorded p env built => exact hend
  | collecting p env todo =>
      cases todo with
      | nil => exact hend
      | cons name todo =>
          have hname : IsVenvName name := hown name List.mem_cons_self
          have htodo : ∀ name ∈ todo, IsVenvName name := fun m hm =>
            hown m (List.mem_cons_of_mem _ hm)
          rw [ShareWorld.act]
          cases hlock : w.lock a (env, beforeMark name.toList) (.locked p env name todo) with
          | some v => exact h.lock hlock rfl rfl rfl ⟨hname, htodo⟩
          | none =>
              refine h.setStage fun s' hs' => ?_
              obtain rfl := Option.some.inj hs'
              exact ⟨rfl, rfl, htodo, fun x hx => (nomatch hx)⟩
  | locked p env name todo =>
      rw [ShareWorld.act]
      split
      · exact hnext p env todo hown.2
      · next hnot =>
          refine h.goOn hs rfl rfl rfl rfl (fun _ hkey => hkey) (fun x hx => (nomatch hx))
            (fun x hx hin => hnot (hregular ?_)) hown
          rw [Option.some.inj hx]
          exact hin
  | checked p env name todo =>
      unfold ShareWorld.act
      dsimp only
      split
      · next cfg hproof =>
          refine h.goOn hs rfl rfl rfl rfl (fun _ hkey => hkey) (fun x hx => (nomatch hx))
            (fun x hx => h.spared a _ x hs hx) ⟨?_, hown⟩
          obtain ⟨dir, -, hdir⟩ := Option.bind_eq_some_iff.mp hproof
          unfold VenvDir.proof at hdir
          split at hdir
          · exact (Option.filter_eq_some_iff.mp hdir).2
          · cases hdir
      · exact hnext p env todo hown.2
  | emptying p env name cfg todo =>
      unfold ShareWorld.act
      dsimp only
      split
      · split
        · exact h.goOn hs rfl rfl rfl rfl (fun _ hkey => hkey) (fun x hx => (nomatch hx))
            (fun x hx => h.spared a _ x hs hx) hown.2
        · exact h.goOn hs rfl rfl rfl rfl (fun _ hkey => hkey) (fun x hx => (nomatch hx))
            (fun x hx => h.spared a _ x hs hx) hown
      · exact hnext p env todo hown.2.2
  | emptied p env name todo =>
      rw [ShareWorld.act]
      split
      · refine h.leave rfl rfl (fun _ hserver => hserver) rfl fun s' hs' => ?_
        obtain rfl := Option.some.inj hs'
        exact ⟨rfl, rfl, rfl, hown.2⟩
      · exact hnext p env todo hown.2
  | starting p env version pid python =>
      rw [ShareWorld.act]
      split
      · refine h.started hregular rfl rfl rfl fun server hserver => ?_
        rcases List.mem_append.mp hserver with hold | hnew
        · exact .inl hold
        · exact .inr (List.mem_singleton.mp hnew ▸ rfl)
      · exact hend

section

variable {V : Type} [LinearOrder V] (parse : List Char → Option V)

theorem isVenvName_planGc (w : ShareWorld A P) (envsDir : List String) (p : P) (env : String)
    (keep : Nat) : ∀ name ∈ w.planGc envsDir parse p env keep, IsVenvName name := by
  have hparsed : ∀ m ∈ parsedVenvs parse ((w.dirs env).map (·.1)), IsVenvName m.2 := by
    intro m hm
    obtain ⟨name, -, hname⟩ := List.mem_filterMap.mp hm
    split at hname
    · cases hname
    · obtain ⟨match', hmatch, hversion⟩ := Option.bind_eq_some_iff.mp hname
      obtain ⟨version, -, rfl⟩ := Option.map_eq_some_iff.mp hversion
      exact isVenvName_of_match hmatch
  intro name hname
  unfold ShareWorld.planGc at hname
  dsimp only at hname
  have hfrom : ∀ (keeps : V × String → Bool),
      name ∈ ((newestFirst (parsedVenvs parse ((w.dirs env).map (·.1)))).filter keeps).map (·.2) →
        IsVenvName name := by
    intro keeps hmem
    obtain ⟨m, hm, rfl⟩ := List.mem_map.mp hmem
    exact hparsed m ((List.perm_insertionSort _ _).mem_iff.mp (List.mem_of_mem_filter hm))
  split at hname
  · exact hfrom _ hname
  · split at hname
    · cases hname
    · exact hfrom _ hname

theorem ShareInv.exec {w : ShareWorld A P} (h : ShareInv w) {envsDir : List String}
    {deed : ShareDeed A P} (hregular : RegularShare envsDir w deed) :
    ShareInv (w.exec envsDir parse deed) := by
  have hbegin : ∀ (a : A) (s : ShareStage P), s.key = none → s.doomed = none → s.given = none →
      s.Holds → ShareInv (w.setStage a (some s)) := by
    intro a s hkey hdoomed hgiven hown
    refine h.setStage fun s' hs' => ?_
    obtain rfl := Option.some.inj hs'
    exact ⟨hkey, hdoomed, hown, fun x hx => by rw [hgiven] at hx; cases hx⟩
  cases deed with
  | build a p env version =>
      rw [ShareWorld.exec, ShareWorld.build]
      split
      · exact h
      · next hvalid =>
          cases hlock : w.lock a (env, venvMark ++ version.toList) (.building p env version) with
          | some v =>
              refine h.lock hlock rfl rfl rfl (plus_not_mem_of_env ?_)
              simpa using (by simpa using hvalid : _ ∧ ∀ c ∈ version.toList, isEnvChar c = true).2
          | none => exact h
  | built a fork files works => exact h.built envsDir a fork files works
  | choose a p env python =>
      rw [ShareWorld.exec]
      split
      · exact h
      · exact hbegin a _ rfl rfl rfl trivial
  | collect a p env keep =>
      rw [ShareWorld.exec]
      split
      · exact h
      · exact hbegin a _ rfl rfl rfl (isVenvName_planGc parse w envsDir p env keep)
  | serve a p env version pid own =>
      rw [ShareWorld.exec]
      split
      · exact h
      · split
        · exact hbegin a _ rfl rfl rfl trivial
        · split
          · exact hbegin a _ rfl rfl rfl trivial
          · exact h
  | act a works =>
      rw [ShareWorld.exec]
      split
      · next s hs => exact h.act works hs (hregular s hs)
      · exact h
  | exit p env server =>
      refine ⟨h.locked, fun a s x hs hx hin => h.spared a s x hs hx ?_, h.stages⟩
      rcases hin with hmap | hgiven | ⟨server', hserver, hsx⟩
      · exact .inl hmap
      · exact .inr (.inl hgiven)
      · exact .inr (.inr ⟨server', List.mem_of_mem_erase hserver, hsx⟩)
  | stop a => exact h.leave rfl rfl (fun _ hserver => hserver) rfl fun _ hs' => (nomatch hs')

/-- One step that meets the condition. -/
def RegularShareStep (envsDir : List String) (w : ShareWorld A P) (deed : ShareDeed A P)
    (w' : ShareWorld A P) : Prop :=
  w' = w.exec envsDir parse deed ∧ RegularShare envsDir w deed

/-- Nobody is at anything. -/
def ShareWorld.Idle (w : ShareWorld A P) : Prop := ∀ a, w.stages a = none

end

end

/-! ### One project collects what another one uses -/

def parseMajor : List Char → Option Nat
  | [c, '.', '0'] => if c.isDigit then some (c.toNat - 48) else none
  | _ => none

def venvDir : VenvDir := ⟨true, some ["home = /usr/bin"], 2⟩

/-- Two projects; the map of the second one is given. -/
def twoProjects (map : Dict String Interpreter) : ShareWorld Nat Bool where
  maps := fun p => if p then map else []
  records := fun _ _ => none
  live := []
  dirs := fun env => if env = "dev" then [("venv-1.0", venvDir), ("venv-2.0", venvDir)] else []
  locks := fun _ => none
  stages := fun _ => none

/-- The first project collects, up to the removal. -/
def collectDeeds : List (ShareDeed Nat Bool) :=
  [.collect 0 false "dev" 1, .act 0 true, .act 0 true, .act 0 true]

def shareRun (map : Dict String Interpreter) (deeds : List (ShareDeed Nat Bool)) :
    ShareWorld Nat Bool :=
  deeds.foldl (ShareWorld.exec ["envs"] parseMajor) (twoProjects map)

end TrwMcp.SharedServer
