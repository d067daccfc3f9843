import Mathlib.Data.List.Dedup
import Mathlib.Data.List.Sort
import Mathlib.Logic.Function.Basic
import TrwMcp.Lib.Dict
import TrwMcp.Lib.Text

/-!
# The venvs of the shared envs

Projects share one directory of envs and have each their own map from an env to an interpreter. A
swap builds a venv under its lock and writes the interpreter into its project's map when the lock is
released; a collection reads one project's map, and removes what it does not name.
-/

namespace TrwMcp.SharedServer

open Lib

/-! ## Names -/

/-- A directory of an env dir. -/
structure Venv where
  env : String
  name : String
  deriving DecidableEq

def venvMark : List Char := "venv-".toList

def distillMark : List Char := "+distill-".toList

def isNameChar (c : Char) : Bool := c.isAlphanum || c = '.' || c = '_' || c = '-'

/-- `_ENV_RE`, but for the lengths. -/
def isEnvChar (c : Char) : Bool :=
  c.isLower || c.isDigit || c = '.' || c = '_' || c = '-' || c = '\n'

/-- The base of `_VENV_NAME`. -/
def isBase : List Char → Bool
  | [] => false
  | c :: cs => c.isAlphanum && cs.all isNameChar

/-- `_VENV_NAME`: the base version and the tag of a fork. -/
def venvName (name : String) : Option (List Char × Option (List Char)) :=
  match List.isPrefixOf? venvMark name.toList with
  | none => none
  | some rest =>
      -- `$` also stands before a newline at the end
      let rest := if rest.getLast? = some '\n' then rest.dropLast else rest
      let base := rest.takeWhile (· ≠ '+')
      if !isBase base then none
      else
        match rest.dropWhile (· ≠ '+') with
        | [] => some (base, none)
        | tail =>
            match List.isPrefixOf? distillMark tail with
            | some tag => if !tag.isEmpty && tag.all isNameChar then some (base, some tag) else none
            | none => none

/-- `name.split("+distill-", 1)[0]` -/
@[grind =] def beforeMark : List Char → List Char
  | [] => []
  | c :: cs => if distillMark.isPrefixOf (c :: cs) then [] else c :: beforeMark cs

/-- `venv-<V>`, or `venv-<V>+distill-<Y>` for a fork. -/
def targetName (version : String) (fork : Option String) : String :=
  String.ofList (venvMark ++ version.toList ++
    match fork with
    | none => []
    | some tag => distillMark ++ tag.toList)

/-! ## The files -/

/-- An interpreter as a map spells it, in the parts of its path, and the venv that holds it. -/
structure Interpreter where
  parts : List String
  home : Option Venv
  deriving DecidableEq

/-- What a name of an env dir leads to: whether it is a real directory, the lines of its
`pyvenv.cfg` when that is a regular file that can be read, and the number of its files. -/
structure VenvDir where
  real : Bool
  cfg : Option (List String)
  files : Nat
  deriving DecidableEq

/-- A line `home = ...`. -/
def isHomeLine (line : String) : Bool :=
  line.toList.contains '=' &&
    Text.stripChars (line.toList.takeWhile (· ≠ '=')) = "home".toList

/-- `_is_owned_venv` and `_cfg_proof_at`, where they prove it. -/
def VenvDir.proof (dir : VenvDir) : Option (List String) :=
  if dir.real then dir.cfg.filter (·.any isHomeLine) else none

structure Server where
  pid : Nat
  version : String
  home : Option Venv
  deriving DecidableEq

/-- Where a process stands; `P` are the projects. -/
inductive ShareStage (P : Type) where
  /-- `build_version_venv`, with the lock of the base venv -/
  | building (p : P) (env version : String)
  /-- a swap has its interpreter, from `build_version_venv` or given -/
  | chosen (p : P) (env : String) (python : Interpreter) (built : Option Venv)
  /-- `set_env_python` has read the map -/
  | mapping (p : P) (env : String) (python : Interpreter) (built : Option Venv)
      (read : Dict String Interpreter)
  | recorded (p : P) (env : String) (built : Option Venv)
  /-- `run_gc`, with the names that are left to remove -/
  | collecting (p : P) (env : String) (todo : List String)
  | locked (p : P) (env name : String) (todo : List String)
  /-- the map does not name it -/
  | checked (p : P) (env name : String) (todo : List String)
  /-- this configuration proved the directory that is open -/
  | emptying (p : P) (env name : String) (cfg : List String) (todo : List String)
  | emptied (p : P) (env name : String) (todo : List String)
  /-- a proxy has read the map -/
  | starting (p : P) (env version : String) (pid : Nat) (python : Interpreter)

/-- The maps and the records of the projects, the live servers, the env dirs, the locks and the
processes. -/
structure ShareWorld (A P : Type) where
  maps : P → Dict String Interpreter
  records : P → String → Option Server
  live : List Server
  dirs : String → Dict String VenvDir
  locks : String × List Char → Option A
  stages : A → Option (ShareStage P)

/-- What happens; a step of a process may fail. -/
inductive ShareDeed (A P : Type) where
  | build (a : A) (p : P) (env version : String)
  /-- the build ends with the base venv or with a fork -/
  | built (a : A) (fork : Option String) (files : Nat) (works : Bool)
  /-- `--python` and `--src` -/
  | choose (a : A) (p : P) (env : String) (python : Interpreter)
  | collect (a : A) (p : P) (env : String) (keep : Nat)
  /-- with the interpreter of the proxy -/
  | serve (a : A) (p : P) (env version : String) (pid : Nat) (own : Interpreter)
  | act (a : A) (works : Bool)
  | exit (p : P) (env : String) (server : Server)
  | stop (a : A)

section

variable {A P : Type} [DecidableEq A] [DecidableEq P]

def ShareWorld.setStage (w : ShareWorld A P) (a : A) (stage : Option (ShareStage P)) :
    ShareWorld A P :=
  { w with stages := Function.update w.stages a stage }

/-- The locks a process has go with it, or with what it does. -/
@[grind =] def ShareWorld.release (w : ShareWorld A P) (a : A) (stage : Option (ShareStage P)) :
    ShareWorld A P :=
  { w with
      stages := Function.update w.stages a stage
      locks := fun key => if w.locks key = some a then none else w.locks key }

/-- `_venv_lock`, which does not wait; nothing is its refusal. -/
def ShareWorld.lock (w : ShareWorld A P) (a : A) (key : String × List Char)
    (stage : ShareStage P) : Option (ShareWorld A P) :=
  if w.locks key = none then
    some
      { w with
          locks := Function.update w.locks key (some a)
          stages := Function.update w.stages a (some stage) }
  else none

section

variable (envsDir : List String)

/-- `_referenced`: the names that the entries of a map have below the env dir. -/
def referenced (map : Dict String Interpreter) (env : String) : List String :=
  map.filterMap fun m => (List.isPrefixOf? (envsDir ++ [env]) m.2.parts).bind List.head?

variable {V : Type} [LinearOrder V] (parse : List Char → Option V)

/-- The entries that are version venvs, with their versions. -/
def parsedVenvs (names : List String) : List (V × String) :=
  names.filterMap fun name =>
    if ".lock".toList.isSuffixOf name.toList then none
    else (venvName name).bind fun m => (parse m.1).map fun version => (version, name)

/-- `sorted(parsed, reverse=True)` -/
def newestFirst (parsed : List (V × String)) : List (V × String) :=
  parsed.insertionSort fun m m' => m'.1 < m.1 ∨ (m'.1 = m.1 ∧ m'.2 ≤ m.2)

/-- `plan_gc`: the names it would remove. -/
def ShareWorld.planGc (w : ShareWorld A P) (p : P) (env : String) (keep : Nat) : List String :=
  let entries := w.dirs env
  let parsed := parsedVenvs parse (entries.map (·.1))
  let newest := ((parsed.map (·.1)).dedup.insertionSort (· ≥ ·)).take keep
  let removable := fun (liveVersion : Option V) =>
    ((newestFirst parsed).filter fun m =>
      m.2 ∉ referenced envsDir (w.maps p) env && some m.1 ≠ liveVersion && m.1 ∉ newest &&
        ((Dict.lookup entries m.2).bind VenvDir.proof).isSome).map (·.2)
  match w.records p env with
  | none => removable none
  | some server =>
      -- a version that does not parse keeps every venv
      match parse server.version.toList with
      | none => []
      | some version => removable (some version)

/-- A swap takes the lock of the base venv. -/
def ShareWorld.build (w : ShareWorld A P) (a : A) (p : P) (env version : String) :
    ShareWorld A P :=
  if (w.stages a).isSome || !version.toList.all isEnvChar then w
  else (w.lock a (env, venvMark ++ version.toList) (.building p env version)).getD w

/-- The end of `build_version_venv`: a directory that was there is used, else one is made. -/
@[grind =] def ShareWorld.built (w : ShareWorld A P) (a : A) (fork : Option String) (files : Nat)
    (works : Bool) : ShareWorld A P :=
  match w.stages a with
  | some (.building p env version) =>
      let name := targetName version fork
      let base := targetName version none
      if !works || (fork.isSome && !Dict.has (w.dirs env) base) then w.release a none
      else
        let dir : VenvDir := ⟨true, some ["home = /usr/bin"], files⟩
        let dirs := if Dict.has (w.dirs env) name then w.dirs
          else Function.update w.dirs env (Dict.set (w.dirs env) name dir)
        let python : Interpreter :=
          ⟨envsDir ++ [env, name, "bin", "python"], some ⟨env, name⟩⟩
        { w with dirs }.release a (some (.chosen p env python (some ⟨env, name⟩)))
  | _ => w

/-- A directory whose files go one after the other. -/
def ShareWorld.unlinkFile (w : ShareWorld A P) (env name : String) (dir : VenvDir) :
    ShareWorld A P :=
  { w with
      dirs := Function.update w.dirs env
        (Dict.set (w.dirs env) name { dir with cfg := none, files := dir.files - 1 }) }

/-- `os.rmdir` -/
def ShareWorld.rmdir (w : ShareWorld A P) (env name : String) : ShareWorld A P :=
  { w with dirs := Function.update w.dirs env ((w.dirs env).filter (·.1 ≠ name)) }

/-- The next step of a process. -/
def ShareWorld.act (w : ShareWorld A P) (a : A) (works : Bool) :
    ShareStage P → ShareWorld A P
  | .building _ _ _ => w
  | .chosen p env python built =>
      if works then w.setStage a (some (.mapping p env python built (w.maps p)))
      else w.setStage a none
  | .mapping p env python built read =>
      if works then
        { w with maps := Function.update w.maps p (Dict.set read env python) }.setStage a
          (some (.recorded p env built))
      else w.setStage a none
  | .recorded _ _ _ => w.setStage a none
  | .collecting _ _ [] => w.setStage a none
  | .collecting p env (name :: todo) =>
      (w.lock a (env, beforeMark name.toList) (.locked p env name todo)).getD
        (w.setStage a (some (.collecting p env todo)))
  | .locked p env name todo =>
      if name ∈ referenced envsDir (w.maps p) env then
        w.release a (some (.collecting p env todo))
      else w.setStage a (some (.checked p env name todo))
  | .checked p env name todo =>
      match (Dict.lookup (w.dirs env) name).bind VenvDir.proof, works with
      | some cfg, true => w.setStage a (some (.emptying p env name cfg todo))
      | _, _ => w.release a (some (.collecting p env todo))
  | .emptying p env name cfg todo =>
      match Dict.lookup (w.dirs env) name, works with
      | some dir, true =>
          if dir.files = 0 then w.setStage a (some (.emptied p env name todo))
          else (w.unlinkFile env name dir).setStage a (some (.emptying p env name cfg todo))
      -- an entry that could not be removed is counted, and the directory is kept
      | _, _ => w.release a (some (.collecting p env todo))
  | .emptied p env name todo =>
      if works then (w.rmdir env name).release a (some (.collecting p env todo))
      else w.release a (some (.collecting p env todo))
  | .starting p env version pid python =>
      let server : Server := ⟨pid, version, python.home⟩
      if works then
        { w with
            live := w.live ++ [server]
            records := Function.update w.records p
              (Function.update (w.records p) env (some server)) }.setStage a none
      else w.setStage a none

/-- One step. -/
def ShareWorld.exec (w : ShareWorld A P) : ShareDeed A P → ShareWorld A P
  | .build a p env version => w.build a p env version
  | .built a fork files works => w.built envsDir a fork files works
  | .choose a p env python =>
      if (w.stages a).isSome then w else w.setStage a (some (.chosen p env python none))
  | .collect a p env keep =>
      -- `--keep must be at least 1`
      if (w.stages a).isSome || keep = 0 then w
      else w.setStage a (some (.collecting p env (w.planGc envsDir parse p env keep)))
  | .serve a p env version pid own =>
      if (w.stages a).isSome then w
      else
        match Dict.lookup (w.maps p) env with
        | some python => w.setStage a (some (.starting p env version pid python))
        | none =>
            if env = "stable" then w.setStage a (some (.starting p env version pid own)) else w
  | .act a works =>
      match w.stages a with
      | some stage => w.act envsDir a works stage
      | none => w
  | .exit p env server =>
      { w with
          live := w.live.erase server
          records := if w.records p env = some server then
              Function.update w.records p (Function.update (w.records p) env none)
            else w.records }
  | .stop a => w.release a none

end

/-! ## Use -/

/-- The venv `build_version_venv` has returned to a swap. -/
def ShareStage.given : ShareStage P → Option Venv
  | .chosen _ _ _ built | .mapping _ _ _ built _ | .recorded _ _ built => built
  | _ => none

/-- Some map names an interpreter in it, it was returned to a swap that has not finished, or a live
server runs from it. -/
def ShareWorld.InUse (w : ShareWorld A P) (v : Venv) : Prop :=
  (∃ p, ∃ m ∈ w.maps p, m.2.home = some v) ∨
    (∃ a s, w.stages a = some s ∧ s.given = some v) ∨ ∃ server ∈ w.live, server.home = some v

/-- `venv-<V>` or `venv-<V>+distill-<Y>`. -/
def IsVenvName (name : String) : Prop :=
  ∃ base, '+' ∉ base ∧ (name.toList = venvMark ++ base ∨
    ∃ tag, name.toList = venvMark ++ base ++ distillMark ++ tag)

end

end TrwMcp.SharedServer
