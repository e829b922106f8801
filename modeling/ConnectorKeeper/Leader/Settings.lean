import ConnectorKeeper.Duration

/-!
# Settings of the leader election

Replicas share a lease, and the one that holds it leads.  A leader renews its
lease more often than the lease runs out.
-/

namespace ConnectorKeeper

/-- How a replica takes part in the election. -/
structure LeaderSettings where
  /-- The name of the lease. -/
  leaseName : String
  /-- The namespace of the lease. -/
  namespaceName : String
  /-- What tells this replica from the others. -/
  holder : String
  /-- How long a lease runs without renewal. -/
  leaseDuration : Duration
  /-- The time between renewals. -/
  renewInterval : Duration
  /-- The lease has a name. -/
  leaseName_ne : leaseName ≠ ""
  /-- The lease has a namespace. -/
  namespaceName_ne : namespaceName ≠ ""
  /-- The replica has a name. -/
  holder_ne : holder ≠ ""
  /-- A renewal comes before the lease runs out. -/
  renews_in_time : renewInterval < leaseDuration

/-- Why there are no such settings. -/
inductive LeaderSettingsError where
  /-- A text is empty. -/
  | empty (field : String)
  /-- The lease would run out between renewals. -/
  | lapses (renewInterval leaseDuration : Duration)
deriving DecidableEq

/-- The message of an error. -/
def LeaderSettingsError.message : LeaderSettingsError → String
  | .empty field => field ++ " cannot be empty"
  | .lapses renew lease =>
      s!"renew_interval ({renew.text}) must be less than lease_duration ({lease.text})"

/-- Settings, if they fit together. -/
def LeaderSettings.make (leaseName namespaceName holder : String)
    (leaseDuration renewInterval : Duration) : Except LeaderSettingsError LeaderSettings :=
  if h₁ : leaseName = "" then .error (.empty "lease_name")
  else if h₂ : namespaceName = "" then .error (.empty "namespace")
  else if h₃ : holder = "" then .error (.empty "holder_id")
  else if h₄ : renewInterval < leaseDuration then
    .ok ⟨leaseName, namespaceName, holder, leaseDuration, renewInterval, h₁, h₂, h₃, h₄⟩
  else .error (.lapses renewInterval leaseDuration)

end ConnectorKeeper
