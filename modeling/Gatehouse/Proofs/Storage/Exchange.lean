import Gatehouse.Storage.Backend

/-!
# What passes between a script and a backend

A script makes calls and goes on from their results. `Ends` has all the ways in which it can come to
its end, whatever the calls result in: nothing is assumed of the backend, which may be shared with
others. To run a script on a backend of its own is one of these ways.

## Key results

- `Script.ends_run`: a script that is run ends with what passed between it and the backend
-/

namespace Gatehouse.Storage

/-- A call together with its result. -/
structure Exchange where
  call : Call
  result : Result call.Reply

namespace Exchange

/-- Whether an exchange opened the backend. -/
def opens : Exchange → Bool
  | ⟨.openStore, .ok _⟩ => true
  | _ => false

/-- Whether an exchange is a call to close the backend. -/
def closes : Exchange → Bool
  | ⟨.closeStore, _⟩ => true
  | _ => false

/-- What a successful change was made to: a kind and a key, and the record that it left there. -/
def change? : Exchange → Option (String × String × Option Value)
  | ⟨.put kind key v, .ok _⟩ => some (kind, key, some v)
  | ⟨.delete kind key, .ok _⟩ => some (kind, key, none)
  | _ => none

end Exchange

namespace Script

variable {α σ : Type}

/-- Whether a script can end in some way after some exchanges. -/
inductive Ends : Script α → List Exchange → Ending α → Prop
  | done (a : α) : Ends (.done a) [] (.value a)
  | panicked : Ends .panicked [] .panic
  | ask {c : Call} {next : Result c.Reply → Script α} {es : List Exchange} {x : Ending α}
    (r : Result c.Reply) (rest : Ends (next r) es x) : Ends (.ask c next) (⟨c, r⟩ :: es) x

/-- What passes between a script and the backend that it is run on. -/
def exchanges [Backend σ] : Script α → σ → List Exchange
  | done _, _ => []
  | panicked, _ => []
  | ask c next, s =>
    ⟨c, (Backend.call c s).1⟩ :: exchanges (next (Backend.call c s).1) (Backend.call c s).2

/-- A script that is run ends with what passed between it and the backend. -/
theorem ends_run [Backend σ] (p : Script α) (s : σ) : Ends p (p.exchanges s) (p.run s).1 := by
  induction p generalizing s with
  | done a => exact .done a
  | panicked => exact .panicked
  | ask c next ih => exact .ask _ (ih _ _)

end Script

end Gatehouse.Storage
