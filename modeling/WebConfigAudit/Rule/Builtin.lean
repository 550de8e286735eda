import WebConfigAudit.Rule.RuleSet
/-!
The rules that apply when a contract does not say otherwise.
-/

namespace WebConfigAudit.Builtin

/-- The longest accepted lifetime of a session or a forms ticket, in minutes. -/
def maxLifetime : UInt64 := 15

private def usesCookies : Check :=
  .ofStringPolicy (.mandatoryValue "usecookies")

/-- Session identifiers belong in cookies.  The session state does so by
default, whereas forms authentication must be told. -/
def cookieless : ElementRule where
  id := "EnsureCookielessAreSetToUseCookies"
  description :=
    some
      "cookieless must be set to UseCookies to keep session identifiers out of URLs"
  clauses :=
    [.of .sessionState "cookieless" usesCookies,
     .of .forms "cookieless" usesCookies,
     .of .forms "cookieless" .presence]

/-- Sessions and forms tickets expire soon. -/
def expiration : ElementRule where
  id := "AvoidInsufficientSessionExpirationInConfigFile"
  description :=
    some ("timeout must be a number of minutes no greater than " ++
      Text.decimal maxLifetime.toNat)
  clauses :=
    [.of .sessionState "timeout" (.integer (.maxValue maxLifetime)),
     .of .forms "timeout" (.integer (.maxValue maxLifetime))]

/-- An error log open to remote users must be kept to administrators. -/
def remoteErrorLog : CompoundRule where
  id := "AvoidElmahEnabledInProduction"
  description :=
    some
      "ELMAH remote access is enabled without restricting it to the admin role"
  anchor := .of .security "allowRemoteAccess" ["true", "1"]
  countermand := .of .allow "roles" "admin"

def rules : RuleSet :=
  ⟨[cookieless, expiration], [remoteErrorLog]⟩

end WebConfigAudit.Builtin
