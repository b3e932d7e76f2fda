import Gatehouse.Decode
import Gatehouse.Settings.Basic

/-!
# Decoding settings

Every section and every field of a section may be left out, apart from the method, the path and the
rate of a quota. The names are those of the settings file.
-/

namespace Gatehouse.Settings

open Decode (Decoder Field Shape Surplus)

/-- The server section. -/
def serverShape : Shape Server where
  name := "ServerConfig"
  init := {}
  fields := [
    .of "port" (Decode.unsigned 16) fun s v => { s with port := v },
    .of "tlsCert" Decode.text fun s v => { s with tlsCert := v },
    .of "tlsKey" Decode.text fun s v => { s with tlsKey := v },
    .of "requireTLS" Decode.bool fun s v => { s with requireTls := v },
    .of "assetsPath" Decode.text fun s v => { s with assetsPath := v },
    .of "notifyEmail" Decode.text fun s v => { s with notifyEmail := v },
    .of "hostName" Decode.text fun s v => { s with hostName := v }]

/-- The storage section. -/
def storageShape : Shape Storage where
  name := "StorageConfig"
  init := {}
  fields := [.of "path" Decode.text fun s v => { s with path := v }]

/-- The mail section. -/
def mailShape : Shape Mail where
  name := "EmailConfig"
  init := {}
  fields := [
    .of "server" Decode.text fun s v => { s with server := v },
    .of "port" Decode.text fun s v => { s with port := v },
    .of "user" Decode.text fun s v => { s with user := v },
    .of "password" Decode.text fun s v => { s with password := v }]

/-- A quota whose fields have not all been seen. -/
structure QuotaDraft where
  method : Option String := none
  pathPrefix : Option String := none
  perMinute : Option Float := none
  burst : Nat := 0

/-- A quota under construction. -/
def quotaShape : Shape QuotaDraft where
  name := "QuotaConfig"
  init := {}
  fields := [
    .of "method" Decode.text fun q v => { q with method := some v },
    .of "pathPrefix" Decode.text fun q v => { q with pathPrefix := some v },
    .of "perMinute" Decode.float fun q v => { q with perMinute := some v },
    .of "burst" (Decode.unsigned 32) fun q v => { q with burst := v }]
  required := 3

/-- The quota, if nothing that it needs is missing. -/
def QuotaDraft.finish (q : QuotaDraft) : Except Mismatch Quota := do
  let some method := q.method | throw (.missing "method")
  let some pathPrefix := q.pathPrefix | throw (.missing "pathPrefix")
  let some perMinute := q.perMinute | throw (.missing "perMinute")
  return { method, pathPrefix, perMinute, burst := q.burst }

/-- A quota. -/
def quota (surplus : Surplus) : Decoder Quota := fun v => do
  (← quotaShape.decode surplus v).finish

/-- The admission section. -/
def admissionShape (surplus : Surplus) : Shape Admission where
  name := "AdmissionConfig"
  init := {}
  fields := [
    .of "enabled" Decode.bool fun s v => { s with enabled := v },
    .of "quotas" (Decode.list (quota surplus)) fun s v => { s with quotas := v },
    .of "idleEvictSecs" (Decode.unsigned 64) fun s v => { s with idleEvictSecs := v },
    .of "sweepIntervalSecs" (Decode.unsigned 64) fun s v => { s with sweepIntervalSecs := v }]

/-- The observability section. -/
def observabilityShape : Shape Observability where
  name := "ObservabilityConfig"
  init := {}
  fields := [
    .of "logLevel" Decode.text fun s v => { s with logLevel := v },
    .of "metricsEnabled" Decode.bool fun s v => { s with metricsEnabled := v },
    .of "metricsAddress" Decode.text fun s v => { s with metricsAddress := v }]

/-- All sections. -/
def shape (surplus : Surplus) : Shape Settings where
  name := "AppConfig"
  init := {}
  fields := [
    .of "server" (serverShape.decode surplus) fun s v => { s with server := v },
    .of "storage" (storageShape.decode surplus) fun s v => { s with storage := v },
    .of "email" (mailShape.decode surplus) fun s v => { s with mail := v },
    .of "admission" ((admissionShape surplus).decode surplus) fun s v => { s with admission := v },
    .of "observability" (observabilityShape.decode surplus) fun s v => { s with observability := v }]

/-- The settings that a value describes. -/
def ofValue (surplus : Surplus) : Decoder Settings := (shape surplus).decode surplus

/-- The server section that a value describes. -/
def Server.ofValue : Decoder Server := serverShape.decode .refused

end Gatehouse.Settings
