import Ambush.Consensus.Node
/-!
# Driving one round over a transport

`drive_round` owns one node, publishes what it says and feeds it what the transport has.
The source's loop has no bound that holds for every transport and clock, so the model
runs it for `fuel` passes: `none` is a call that has not returned by then, or that the
abort in `tick` ends.
-/
open Lib

namespace Ambush.Consensus

/-- A `dyn ConsensusTransport`: its methods, over whatever state it keeps. -/
structure ConsensusTransport where
  State : Type
  accept_committee : State → ConsensusCommittee → State × Except ConsensusError Unit
  publish : State → ConsensusSignedEnvelope → State × Except ConsensusError Unit
  drain : State → State × Except ConsensusError (List ConsensusSignedEnvelope)

/-! ## The transport of a committee of one -/

structure SoloGovernorTransport where
  recent : List ConsensusSignedEnvelope := []
  published_total : Nat := 0

def SOLO_TRANSPORT_RECENT_CAPACITY : Nat := 64

namespace SoloGovernorTransport

def accept_committee (committee : ConsensusCommittee) : Except ConsensusError Unit :=
  if 1 < committee.members.length then
    .error (.InvalidCommittee ("SoloGovernorTransport cannot serve a committee of " ++
      toString committee.members.length ++ " members: it delivers no messages, so every peer vote would be missing " ++
      "and the round would either stall or commit on the local vote alone. Wire a networked transport."))
  else .ok ()

def publish (t : SoloGovernorTransport) (envelope : ConsensusSignedEnvelope) : SoloGovernorTransport :=
  let recent := t.recent ++ [envelope]
  ⟨recent.drop (recent.length - SOLO_TRANSPORT_RECENT_CAPACITY), satAdd t.published_total 1⟩

end SoloGovernorTransport

def solo : ConsensusTransport where
  State := SoloGovernorTransport
  accept_committee t committee := (t, SoloGovernorTransport.accept_committee committee)
  publish t envelope := (t.publish envelope, .ok ())
  drain t := (t, .ok [])

/-! ## The driver -/

section Drive
variable (c : Crypto) (T : ConsensusTransport)

/-- What `drive_round` holds between two passes of its loop. -/
structure Drive where
  node : ConsensusNode
  transport : T.State
  now_ms : Int
  outbound : List ConsensusEnvelope
  handled_inbound : Nat

/-- A pass goes on, or returns. -/
inductive Turn where
  | go (d : Drive T)
  | done (t : T.State) (result : Except ConsensusError ConsensusCommit)

/-- `transport.publish(&node.sign_outbound(envelope)?)?` for each envelope in turn. -/
def publish_all (n : ConsensusNode) (t : T.State) : List ConsensusEnvelope → T.State × Except ConsensusError Unit
  | [] => (t, .ok ())
  | e :: es =>
    match n.sign_outbound c e with
    | .error x => (t, .error x)
    | .ok signed =>
      match T.publish t signed with
      | (t, .error x) => (t, .error x)
      | (t, .ok ()) => publish_all n t es

/-- A call's first commit is returned once its envelopes are out; without one they wait. -/
def settle (d : Drive T) (out : Outcome) : Turn T :=
  match out with
  | (_, .error x) => .done d.transport (.error x)
  | (n, .ok progress) =>
    match progress.commits with
    | commit :: _ =>
      match publish_all c T n d.transport progress.outbound with
      | (t, .error x) => .done t (.error x)
      | (t, .ok ()) => .done t (.ok commit)
    | [] => .go { d with node := n, outbound := d.outbound ++ progress.outbound }

def max_inbound (n : ConsensusNode) : Nat :=
  satAdd (satMul (satMul (satAdd n.committee.max_faulty 1) 3) n.committee.members.length) 8

/-- The inbound envelopes of one drain. -/
def receive (bound : Nat) (d : Drive T) : List ConsensusSignedEnvelope → Turn T
  | [] => .go d
  | e :: es =>
    let d := { d with handled_inbound := satAdd d.handled_inbound 1 }
    if bound < d.handled_inbound then
      .done d.transport (.error (.Transport ("transport delivered more than " ++ toString bound ++
        " envelopes for one round of a                      " ++ toString d.node.committee.members.length ++
        "-member committee; refusing to spin")))
    else
      match settle c T d (d.node.handle_signed_envelope c e d.now_ms) with
      | .done t result => .done t result
      | .go d => receive bound d es

/-- One pass of the loop. -/
def pass (bound : Nat) (d : Drive T) : Option (Turn T) :=
  match publish_all c T d.node d.transport d.outbound with
  | (t, .error x) => some (.done t (.error x))
  | (t, .ok ()) =>
    match T.drain t with
    | (t, .error x) => some (.done t (.error x))
    | (t, .ok inbound) =>
      match receive c T bound { d with transport := t, outbound := [] } inbound with
      | .done t result => some (.done t result)
      | .go d =>
        if !inbound.isEmpty then some (.go d)
        else if d.node.committee.max_faulty ≤ d.node.round then
          let timeout := d.node.config.round_timeout_ms
          let rounds := satAdd d.node.committee.max_faulty 1
          some (.done d.transport (.error (.InvalidMessage ("governance round did not reach threshold " ++
            toString d.node.committee.threshold ++ " of committee size " ++
            toString d.node.committee.members.length ++ " within " ++ toString (satMulI timeout rounds) ++
            " ms (round_timeout_ms " ++ toString timeout ++ " x max_faulty+1 " ++ toString rounds ++ ")"))))
        else
          let d := { d with now_ms := satAddI d.now_ms d.node.config.round_timeout_ms }
          (d.node.tick c d.now_ms).map (settle c T d)

def drive_loop (bound : Nat) : Nat → Drive T → Option (T.State × Except ConsensusError ConsensusCommit)
  | 0, _ => none
  | fuel + 1, d =>
    match pass c T bound d with
    | none => none
    | some (.done t result) => some (t, result)
    | some (.go d) => drive_loop bound fuel d

def drive_round (fuel : Nat) (node : ConsensusNode) (transport : T.State) (proposal : ConsensusProposal)
    (started_at_ms : Int) : Option (T.State × Except ConsensusError ConsensusCommit) :=
  match T.accept_committee transport node.committee with
  | (t, .error x) => some (t, .error x)
  | (t, .ok ()) =>
    match settle c T ⟨node, t, started_at_ms, [], 0⟩ (node.queue_proposal c proposal started_at_ms) with
    | .done t result => some (t, result)
    | .go d => drive_loop c T (max_inbound node) fuel d

end Drive
end Ambush.Consensus
