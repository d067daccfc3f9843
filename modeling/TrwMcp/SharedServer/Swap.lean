import TrwMcp.Lib.Dict
import Mathlib.Logic.Function.Basic

/-!
# Swaps

`swap` points an env at an interpreter and at the source it serves. The record of an env is spread
over two maps that all envs share, `envs-pythonpath.json` and `envs.json`, and `set_env_python`
reads, edits and writes back the one and then the other. `spawn_server` reads them again, first
the interpreter.
-/

namespace TrwMcp.SharedServer

open TrwMcp.Lib

/-! ## The maps -/

/-- What `swap` was called with, once its checks have passed. A `Path` is never the empty text. -/
structure SwapCall where
  env : String
  python : String
  pythonpath : Option String := none
  named : python ≠ ""

/-- What a swap records beside the interpreter: an empty `PYTHONPATH` clears the entry. -/
def SwapCall.source (call : SwapCall) : Option String := call.pythonpath.filter (· ≠ "")

/-- The map of `envs-pythonpath.json` that `set_env_python` writes back -/
def SwapCall.editSources (call : SwapCall) (sources : Dict String String) : Dict String String :=
  match call.source with
  | some pythonpath => Dict.set sources call.env pythonpath
  | none => sources.filter (·.1 ≠ call.env)

/-- The map of `envs.json` that `set_env_python` writes back -/
def SwapCall.editMapping (call : SwapCall) (mapping : Dict String String) : Dict String String :=
  Dict.set mapping call.env call.python

def envPythonpath (sources : Dict String String) (env : String) : Option String :=
  (Dict.lookup sources env).filter (· ≠ "")

/-- The interpreter an env has without a swap; only `stable` has one. -/
def defaultPython (executable env : String) : Option String :=
  if env = "stable" then some executable else none

/-- `none`: refused. -/
def envPython (executable : String) (mapping : Dict String String) (env : String) :
    Option String :=
  match (Dict.lookup mapping env).filter (· ≠ "") with
  | some mapped => some mapped
  | none => defaultPython executable env

/-! ## Swaps and server starts -/

/-- Where `set_env_python` stands. -/
inductive SwapStage where
  | absent
  | called (call : SwapCall)
  | sourcesRead (call : SwapCall) (sources : Dict String String)
  | sourcesWritten (call : SwapCall)
  | mappingRead (call : SwapCall) (mapping : Dict String String)
  | returned (call : SwapCall)
  | crashed (call : SwapCall)

/-- The swap runs, and has made the first of its two writes. -/
def SwapStage.between : SwapStage → Option SwapCall
  | .sourcesWritten call | .mappingRead call _ => some call
  | _ => none

def SwapStage.running : SwapStage → Bool
  | .absent | .returned _ | .crashed _ => false
  | _ => true

/-- Where `spawn_server` stands. `writer` is the swap that wrote the interpreter it
has read. -/
inductive StartStage (W : Type) where
  | absent
  | called (env : String)
  | pythonRead (env python : String) (writer : Option W)
  | started (env python : String) (pythonpath : Option String)
  | refused (env : String)

/-- The two files, who last wrote an entry of an env into each, and those at work. -/
structure SwapWorld (W P : Type) where
  sources : Dict String String := []
  mapping : Dict String String := []
  sourcesBy : String → Option W := fun _ => none
  mappingBy : String → Option W := fun _ => none
  swaps : W → SwapStage := fun _ => .absent
  starts : P → StartStage W := fun _ => .absent

inductive SwapDeed (W P : Type) where
  | swap (w : W) (call : SwapCall)
  | readSources (w : W)
  | writeSources (w : W)
  | readMapping (w : W)
  | writeMapping (w : W)
  | crash (w : W)
  | start (p : P) (env : String)
  | readPython (p : P)
  | readPythonpath (p : P)

namespace SwapWorld

variable {W P : Type} [DecidableEq W] [DecidableEq P]

def setSwap (world : SwapWorld W P) (w : W) (stage : SwapStage) : SwapWorld W P :=
  { world with swaps := Function.update world.swaps w stage }

def setStart (world : SwapWorld W P) (p : P) (stage : StartStage W) : SwapWorld W P :=
  { world with starts := Function.update world.starts p stage }

/-- One file access; a deed that is not the next one of its actor does nothing. -/
@[grind =] def exec (executable : String) (world : SwapWorld W P) : SwapDeed W P → SwapWorld W P
  | .swap w call =>
      match world.swaps w with
      | .absent => world.setSwap w (.called call)
      | _ => world
  | .readSources w =>
      match world.swaps w with
      | .called call => world.setSwap w (.sourcesRead call world.sources)
      | _ => world
  | .writeSources w =>
      match world.swaps w with
      | .sourcesRead call sources =>
          { world.setSwap w (.sourcesWritten call) with
            sources := call.editSources sources
            sourcesBy := Function.update world.sourcesBy call.env (some w) }
      | _ => world
  | .readMapping w =>
      match world.swaps w with
      | .sourcesWritten call => world.setSwap w (.mappingRead call world.mapping)
      | _ => world
  | .writeMapping w =>
      match world.swaps w with
      | .mappingRead call mapping =>
          { world.setSwap w (.returned call) with
            mapping := call.editMapping mapping
            mappingBy := Function.update world.mappingBy call.env (some w) }
      | _ => world
  | .crash w =>
      match world.swaps w with
      | .called call | .sourcesRead call _ | .sourcesWritten call | .mappingRead call _ =>
          world.setSwap w (.crashed call)
      | _ => world
  | .start p env =>
      match world.starts p with
      | .absent => world.setStart p (.called env)
      | _ => world
  | .readPython p =>
      match world.starts p with
      | .called env =>
          match envPython executable world.mapping env with
          | some python => world.setStart p (.pythonRead env python (world.mappingBy env))
          | none => world.setStart p (.refused env)
      | _ => world
  | .readPythonpath p =>
      match world.starts p with
      | .pythonRead env python _ =>
          world.setStart p (.started env python (envPythonpath world.sources env))
      | _ => world

/-- The env whose record the deed is about to write. -/
def writes (world : SwapWorld W P) : SwapDeed W P → Option String
  | .writeSources w =>
      match world.swaps w with
      | .sourcesRead call _ => some call.env
      | _ => none
  | .writeMapping w =>
      match world.swaps w with
      | .mappingRead call _ => some call.env
      | _ => none
  | _ => none

/-- What a server start of the env would read. -/
def pair (executable : String) (world : SwapWorld W P) (env : String) :
    Option String × Option String :=
  (envPython executable world.mapping env, envPythonpath world.sources env)

/-- Every swap has returned or crashed. -/
def SwapsDone (world : SwapWorld W P) : Prop := ∀ w, (world.swaps w).running = false

end SwapWorld

end TrwMcp.SharedServer
