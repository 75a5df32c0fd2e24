import SchemaPlan.Address
import SchemaPlan.Observer
import SchemaPlan.Plan

/-!
# Planners

A `Planner` plans for objects that are given by their addresses: it has them described by an
observer and compares the description with the declaration. `confirmTable` and `confirmTopic`
give the handle of an object once it is there.
-/

namespace SchemaPlan

/-- What planning for an address needs: an observer, the codecs that may be used, and what a plan
may do. -/
structure Planner (m : Type → Type) where
  observer : Observer m
  codecs : CodecTable := .standard
  options : PlanOptions := {}

namespace Planner

variable {m : Type → Type} [Monad m]

/-- Refuses a declaration whose path is not the path of the address. -/
def checkPath (address : Address) (declared : String) : Except Error Unit :=
  if address.path = declared then .ok ()
  else .error (.rejected (.pathMismatch declared address.path))

/-- The plan for a declared table at an address. -/
def planTable (planner : Planner m) (address : Address) (declared : Table) :
    ExceptT Error m Plan := do
  checkPath address declared.path
  let observed ← ExceptT.mk (planner.observer.table address.fullPath)
  SchemaPlan.planTable planner.options declared observed

/-- The plan for a declared topic at an address. -/
def planTopic (planner : Planner m) (address : Address) (declared : DeclaredTopic) :
    ExceptT Error m Plan := do
  checkPath address declared.path
  let observed ← ExceptT.mk (planner.observer.topic address.fullPath)
  SchemaPlan.planTopic planner.codecs declared observed

/-- The handle of an address at which `observed` has been found. -/
def confirm {α : Type} (address : Address) (observed : Option α) : Except Error String :=
  match observed with
  | some _ => .ok address.handle
  | none => .error (.notCreated address.fullPath)

/-- The handle of a table that is there. -/
def confirmTable (planner : Planner m) (address : Address) : ExceptT Error m String := do
  confirm address (← ExceptT.mk (planner.observer.table address.fullPath))

/-- The handle of a topic that is there. -/
def confirmTopic (planner : Planner m) (address : Address) : ExceptT Error m String := do
  confirm address (← ExceptT.mk (planner.observer.topic address.fullPath))

end Planner

end SchemaPlan
