import Mathlib.Tactic.Common

/-!
# The dependency container

`DependencyContainer` of milestone 1.2. Code that runs with a container (a factory, a request
handler) is a tree of what it does: it resolves names, reads and changes the rest of the world, and
ends with a value or an exception. `none` is Python's `None`. The log is no part of the source: it
lists the calls of `resolve` and the executions of factories.
-/

namespace Portfolio.Framework
open Std

section
variable {V W : Type}

abbrev Outcome (V : Type) := Except String (Option V)

inductive Code (V W : Type) where
  | done (outcome : Outcome V)
  | resolve (name : String) (k : Outcome V → Code V W)
  | effect (change : W → W) (k : W → Code V W)

/-- `inject`: the wrapper of a handler. -/
def inject (serviceName : String) (function : Option V → Code V W) : Code V W :=
  .resolve serviceName fun
    | .ok service => function service
    | .error e => .done (.error e)

namespace DependencyContainer

/-- `_Registration` -/
structure Registration (V W : Type) where
  value : Option V
  factory : Option (Code V W) := none
  singleton : Bool := true

end DependencyContainer

inductive ContainerEvent (V : Type) where
  | resolving (name : String)
  | executing (name : String)
  | executed (name : String) (outcome : Outcome V)
  | resolved (name : String) (value : Option V)

/-- The container with its surroundings. -/
structure DependencyContainer (V W : Type) where
  registrations : TreeMap String (DependencyContainer.Registration V W) := ∅
  world : W
  log : List (ContainerEvent V) := []

namespace DependencyContainer

def registerInstance (c : DependencyContainer V W) (name : String) (instance_ : Option V) :
    DependencyContainer V W :=
  { c with registrations := c.registrations.insert name ⟨instance_, none, true⟩ }

def registerFactory (c : DependencyContainer V W) (name : String) (factory : Code V W) (singleton : Bool) :
    DependencyContainer V W :=
  { c with registrations := c.registrations.insert name ⟨none, some factory, singleton⟩ }

def note (c : DependencyContainer V W) (event : ContainerEvent V) : DependencyContainer V W :=
  { c with log := c.log ++ [event] }

end DependencyContainer

/-- Runs code, given what the calls of `resolve` do. -/
def Code.run (resolve : String → DependencyContainer V W → Option (Outcome V × DependencyContainer V W)) :
    Code V W → DependencyContainer V W → Option (Outcome V × DependencyContainer V W)
  | .done outcome, c => some (outcome, c)
  | .resolve name k, c => (resolve name c).bind fun r => (k r.1).run resolve r.2
  | .effect change k, c => (k c.world).run resolve { c with world := change c.world }

namespace DependencyContainer

/-- `resolve`; the fuel bounds the depth of the recursion, and `none` means that it did not suffice. -/
def resolve : Nat → String → DependencyContainer V W → Option (Outcome V × DependencyContainer V W)
  | 0, _, _ => none
  | fuel + 1, name, c => match c.registrations[name]? with
    | none => some (.error ("Dependency '" ++ name ++ "' is not registered"), c)
    | some registration =>
      let c := c.note (.resolving name)
      match registration.factory with
      | none => some (.ok registration.value, c.note (.resolved name registration.value))
      | some factory =>
        if registration.singleton ∧ registration.value ≠ none then
          some (.ok registration.value, c.note (.resolved name registration.value))
        else match factory.run (resolve fuel) (c.note (.executing name)) with
          | none => none
          | some (.error e, c) => some (.error e, c.note (.executed name (.error e)))
          | some (.ok instance_, c) =>
            let c := c.note (.executed name (.ok instance_))
            let c := if registration.singleton then
                { c with registrations :=
                    c.registrations.insert name ⟨instance_, some factory, registration.singleton⟩ }
              else c
            some (.ok instance_, c.note (.resolved name instance_))

/-- Pieces of code that run with the container one after the other. -/
def serve (fuel : Nat) : List (Code V W) → DependencyContainer V W → Option (DependencyContainer V W)
  | [], c => some c
  | code :: codes, c => (code.run (resolve fuel) c).bind fun r => serve fuel codes r.2

end DependencyContainer

/-- A call of `registerInstance` or `registerFactory`. -/
inductive Registering (V W : Type) where
  | instance_ (name : String) (value : Option V)
  | factory (name : String) (code : Code V W) (singleton : Bool)

def Registering.name : Registering V W → String
  | instance_ name _ => name
  | factory name _ _ => name

def Registering.registration : Registering V W → DependencyContainer.Registration V W
  | instance_ _ value => ⟨value, none, true⟩
  | factory _ code singleton => ⟨none, some code, singleton⟩

namespace DependencyContainer

def register (c : DependencyContainer V W) : Registering V W → DependencyContainer V W
  | .instance_ name value => c.registerInstance name value
  | .factory name code singleton => c.registerFactory name code singleton

/-- A container on which only these calls were made. -/
def registered (world : W) (calls : List (Registering V W)) : DependencyContainer V W :=
  calls.foldl register { world := world }

end DependencyContainer

end

end Portfolio.Framework
