import Ambush.Core.Signing
/-!
# Response actions, requests and agent health

The shared data of `swarm-core` that the policy gate and the governor read, with the
JSON each has where a digest covers it.
-/
namespace Ambush

abbrev HuntId := String

inductive Severity where
  | Low | Medium | High | Critical
  deriving DecidableEq

def Severity.name : Severity → String
  | .Low => "LOW"
  | .Medium => "MEDIUM"
  | .High => "HIGH"
  | .Critical => "CRITICAL"

inductive ResponseAction where
  | BlockEgress (target : String)
  | IsolateHost (host_id : String)
  | RevokeCredential (credential_id : String)
  | SinkholeDns (domain : String)
  | TerminateUserSession (host_id session_id : String)
  | TriggerEdrScan (host_id scan_profile : String)
  | InjectFirewallRule (host_id rule_name direction cidr : String) (port : Option Nat)
  | QuarantineFile (host_id file_path : String)
  | KillProcess (host_id process_name : String)
  | SuspendProcess (host_id process_name : String)
  | DisableUserAccount (user_id : String)
  | ForcePasswordReset (user_id : String)
  | RemoveScheduledTask (host_id task_name : String)
  | DeployDecoy (decoy_type target_zone : String)
  | Escalate (summary : String) (urgency : Severity)
  deriving DecidableEq

namespace ResponseAction

def kind : ResponseAction → String
  | .BlockEgress .. => "block_egress"
  | .IsolateHost .. => "isolate_host"
  | .RevokeCredential .. => "revoke_credential"
  | .SinkholeDns .. => "sinkhole_dns"
  | .TerminateUserSession .. => "terminate_user_session"
  | .TriggerEdrScan .. => "trigger_edr_scan"
  | .InjectFirewallRule .. => "inject_firewall_rule"
  | .QuarantineFile .. => "quarantine_file"
  | .KillProcess .. => "kill_process"
  | .SuspendProcess .. => "suspend_process"
  | .DisableUserAccount .. => "disable_user_account"
  | .ForcePasswordReset .. => "force_password_reset"
  | .RemoveScheduledTask .. => "remove_scheduled_task"
  | .DeployDecoy .. => "deploy_decoy"
  | .Escalate .. => "escalate"

/-- The fields of an action, tagged by `type`, in key order. -/
def serialize (a : ResponseAction) : Value :=
  let type := ("type", Value.string a.kind)
  match a with
  | .BlockEgress target => .object [("target", .string target), type]
  | .IsolateHost host_id => .object [("host_id", .string host_id), type]
  | .RevokeCredential credential_id => .object [("credential_id", .string credential_id), type]
  | .SinkholeDns domain => .object [("domain", .string domain), type]
  | .TerminateUserSession host_id session_id =>
    .object [("host_id", .string host_id), ("session_id", .string session_id), type]
  | .TriggerEdrScan host_id scan_profile =>
    .object [("host_id", .string host_id), ("scan_profile", .string scan_profile), type]
  | .InjectFirewallRule host_id rule_name direction cidr port =>
    .object [("cidr", .string cidr), ("direction", .string direction), ("host_id", .string host_id),
      ("port", match port with | some p => .integer p | none => .null), ("rule_name", .string rule_name), type]
  | .QuarantineFile host_id file_path => .object [("file_path", .string file_path), ("host_id", .string host_id), type]
  | .KillProcess host_id process_name | .SuspendProcess host_id process_name =>
    .object [("host_id", .string host_id), ("process_name", .string process_name), type]
  | .DisableUserAccount user_id | .ForcePasswordReset user_id => .object [type, ("user_id", .string user_id)]
  | .RemoveScheduledTask host_id task_name =>
    .object [("host_id", .string host_id), ("task_name", .string task_name), type]
  | .DeployDecoy decoy_type target_zone =>
    .object [("decoy_type", .string decoy_type), ("target_zone", .string target_zone), type]
  | .Escalate summary urgency => .object [("summary", .string summary), type, ("urgency", .string urgency.name)]

end ResponseAction

/-! ## Agent health -/

inductive AgentRole where
  | Whisker | Stalker | Weaver | Pouncer | Tom | Kitten | Sphinx | Calico
  deriving DecidableEq

def AgentRole.name : AgentRole → String
  | .Whisker => "whisker"
  | .Stalker => "stalker"
  | .Weaver => "weaver"
  | .Pouncer => "pouncer"
  | .Tom => "tom"
  | .Kitten => "kitten"
  | .Sphinx => "sphinx"
  | .Calico => "calico"

inductive AgentHealth where
  | Healthy | Degraded | Failed
  deriving DecidableEq

def AgentHealth.name : AgentHealth → String
  | .Healthy => "healthy"
  | .Degraded => "degraded"
  | .Failed => "failed"

/-- The `Debug` text. -/
def AgentHealth.debug : AgentHealth → String
  | .Healthy => "Healthy"
  | .Degraded => "Degraded"
  | .Failed => "Failed"

structure AgentHealthEntry where
  id : String
  role : AgentRole
  health : AgentHealth
  deriving DecidableEq

def AgentHealthEntry.serialize (e : AgentHealthEntry) : Value :=
  .object [("health", .string e.health.name), ("id", .string e.id), ("role", .string e.role.name)]

end Ambush
