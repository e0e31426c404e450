import Ambush.Core.Types
/-!
# The static approval gate

`ActionRequest`, the checks of `StaticApprovalGate::validate_request`, and the policy
scope of an action. `validate_request` reads no field of its gate.
-/
namespace Ambush.Policy

structure ActionRequest where
  hunt_id : HuntId
  requested_by : AgentId
  action : ResponseAction
  severity : Severity
  evidence : Value
  deriving DecidableEq

inductive ApprovalError where
  | Denied (reason : String)
  | InvalidRequest (text : String)
  deriving DecidableEq

/-- `char::is_whitespace`: the Unicode `White_Space` property. -/
def is_whitespace (c : Char) : Bool :=
  let n := c.toNat
  (0x09 ≤ n && n ≤ 0x0d) || n == 0x20 || n == 0x85 || n == 0xa0 || n == 0x1680 || (0x2000 ≤ n && n ≤ 0x200a) ||
    n == 0x2028 || n == 0x2029 || n == 0x202f || n == 0x205f || n == 0x3000

/-- `s.trim().is_empty()`. -/
def blank (s : String) : Bool := s.toList.all is_whitespace

/-- The fields of an action that must not be blank, and the message when one is. -/
def required : ResponseAction → List String × String
  | .BlockEgress target => ([target], "block target must not be empty")
  | .IsolateHost host_id => ([host_id], "host_id must not be empty")
  | .RevokeCredential credential_id => ([credential_id], "credential_id must not be empty")
  | .SinkholeDns domain => ([domain], "domain must not be empty")
  | .TerminateUserSession host_id session_id => ([host_id, session_id], "host_id and session_id must not be empty")
  | .TriggerEdrScan host_id scan_profile => ([host_id, scan_profile], "host_id and scan_profile must not be empty")
  | .InjectFirewallRule host_id rule_name direction cidr _ =>
    ([host_id, rule_name, direction, cidr], "host_id, rule_name, direction, and cidr must not be empty")
  | .QuarantineFile host_id file_path => ([host_id, file_path], "host_id and file_path must not be empty")
  | .KillProcess host_id process_name | .SuspendProcess host_id process_name =>
    ([host_id, process_name], "host_id and process_name must not be empty")
  | .DisableUserAccount user_id | .ForcePasswordReset user_id => ([user_id], "user_id must not be empty")
  | .RemoveScheduledTask host_id task_name => ([host_id, task_name], "host_id and task_name must not be empty")
  | .DeployDecoy decoy_type target_zone => ([decoy_type, target_zone], "decoy_type and target_zone must not be empty")
  | .Escalate summary _ => ([summary], "summary must not be empty")

def validate_request (request : ActionRequest) : Except ApprovalError Unit :=
  if request.evidence.is_null then .error (.InvalidRequest "evidence bundle must not be null")
  else if (required request.action).1.any blank then .error (.InvalidRequest (required request.action).2)
  else .ok ()

def scope_for_response_action : ResponseAction → Option String
  | .BlockEgress target => some target
  | .IsolateHost host_id => some host_id
  | .RevokeCredential credential_id => some credential_id
  | .SinkholeDns domain => some domain
  | .TerminateUserSession host_id session_id => some (host_id ++ ":" ++ session_id)
  | .TriggerEdrScan host_id _ => some host_id
  | .InjectFirewallRule host_id rule_name _ _ _ => some (host_id ++ ":" ++ rule_name)
  | .QuarantineFile host_id file_path => some (host_id ++ ":" ++ file_path)
  | .KillProcess host_id process_name | .SuspendProcess host_id process_name => some (host_id ++ ":" ++ process_name)
  | .DisableUserAccount user_id | .ForcePasswordReset user_id => some user_id
  | .RemoveScheduledTask host_id task_name => some (host_id ++ ":" ++ task_name)
  | .DeployDecoy _ target_zone => some target_zone
  | .Escalate _ _ => none

end Ambush.Policy
