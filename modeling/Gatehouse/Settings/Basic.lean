/-!
# Settings

The settings of a run, with the value each has when nothing sets it.
-/

namespace Gatehouse

/-- How requests are received. -/
structure Settings.Server where
  port : Nat := 3000
  tlsCert : String := ""
  tlsKey : String := ""
  requireTls : Bool := false
  assetsPath : String := "assets"
  notifyEmail : String := ""
  hostName : String := ""
deriving Inhabited

/-- Where records are kept. -/
structure Settings.Storage where
  path : String := "db"
deriving Inhabited

/-- How mail is sent. -/
structure Settings.Mail where
  server : String := ""
  port : String := ""
  user : String := ""
  password : String := ""
deriving Inhabited

/-- The rate granted to the requests with a method and a path that begins as given: so many per
    minute, and `burst` more at once. -/
structure Settings.Quota where
  method : String
  pathPrefix : String
  perMinute : Float
  burst : Nat := 0
deriving Inhabited

/-- Which requests are counted, and how long unused counters are kept. -/
structure Settings.Admission where
  enabled : Bool := true
  quotas : List Settings.Quota := []
  idleEvictSecs : Nat := 600
  sweepIntervalSecs : Nat := 60
deriving Inhabited

/-- What a run tells about itself. -/
structure Settings.Observability where
  logLevel : String := "info"
  metricsEnabled : Bool := false
  metricsAddress : String := "127.0.0.1:9090"
deriving Inhabited

/-- All settings of a run. -/
structure Settings where
  server : Settings.Server := {}
  storage : Settings.Storage := {}
  mail : Settings.Mail := {}
  admission : Settings.Admission := {}
  observability : Settings.Observability := {}
deriving Inhabited

/-- Connections are encrypted only if both a certificate and a key are set. -/
def Settings.Server.tlsEnabled (s : Settings.Server) : Bool :=
  !s.tlsCert.isEmpty && !s.tlsKey.isEmpty

end Gatehouse
