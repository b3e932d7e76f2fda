import Gatehouse.Decimal.Binary
import Gatehouse.Http.Method
import Gatehouse.Settings.Basic
import Gatehouse.Text.Quoted
import Gatehouse.Text.Upper

/-!
# What settings must satisfy

Settings that decode may still make no sense together. `Settings.problems` lists everything that is
wrong with them, and settings are `valid` if that is nothing.
-/

namespace Gatehouse.Settings

/-- Something that is wrong with decoded settings. -/
inductive Problem
  /-- Only one of certificate and key is set. -/
  | partialTls
  /-- The method of a quota is no token, even in upper case. -/
  | invalidMethod (index : Nat) (method : String)
  /-- The path of a quota does not begin at the root. -/
  | invalidPrefix (index : Nat)
  /-- The rate of a quota is not positive. -/
  | invalidRate (index : Nat)
  /-- The sweeper would never rest. -/
  | zeroSweepInterval
deriving DecidableEq, Repr

/-- The wording of a problem. -/
def Problem.message : Problem → String
  | partialTls => "server.tlsCert and server.tlsKey must be set together"
  | invalidMethod i m => "quota " ++ toString i ++ ": invalid method " ++ Text.quote m
  | invalidPrefix i => "quota " ++ toString i ++ ": path prefix must start with '/'"
  | invalidRate i => "quota " ++ toString i ++ ": perMinute must be positive"
  | zeroSweepInterval => "admission.sweepIntervalSecs must be positive"

/-- The method that a quota names, in upper case, if it is one. -/
def Quota.method? (q : Quota) : Option Http.Method := Http.Method.ofString? (Text.upper q.method)

/-- What is wrong with the quota at an index. -/
def Quota.problems (index : Nat) (q : Quota) : List Problem :=
  (if q.method?.isNone then [.invalidMethod index q.method] else [])
    ++ (if q.pathPrefix.toList.head? = some '/' then [] else [.invalidPrefix index])
    ++ (if Decimal.isPositive q.perMinute then [] else [.invalidRate index])

/-- What is wrong with quotas that follow each other from an index on. -/
def quotaProblems (index : Nat) : List Quota → List Problem
  | [] => []
  | q :: qs => q.problems index ++ quotaProblems (index + 1) qs

/-- Everything that is wrong with settings, in the order of the sections and quotas. -/
def problems (s : Settings) : List Problem :=
  (if s.server.tlsCert.isEmpty != s.server.tlsKey.isEmpty then [.partialTls] else [])
    ++ quotaProblems 0 s.admission.quotas
    ++ (if s.admission.sweepIntervalSecs = 0 then [.zeroSweepInterval] else [])

/-- Whether nothing is wrong with settings. -/
def valid (s : Settings) : Bool := s.problems.isEmpty

end Gatehouse.Settings
