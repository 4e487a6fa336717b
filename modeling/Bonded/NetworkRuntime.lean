import Bonded.AdvertisedEndpoints

/-! The host's network for forwarding through a TUN device: `setup` turns on forwarding and adds
three rules, `drop` takes back what was added. The steps of both may fail; a step that fails
changes nothing. -/
namespace Bonded.NetworkRuntime

open AdvertisedEndpoints Auth Bootstrap CertProof ClientBootstrap Packet Text
open Http (parseUnsigned)
open PeerShare (Outcome)

section Host

inductive RuleTable
  | nat
  | filter
  deriving DecidableEq, Repr

structure Rule where
  table : RuleTable
  spec : List String
  deriving DecidableEq, Repr

/-- What the runtime changes: the rules and the text of `ip_forward`. History: the rules of the
commands that added or deleted one. -/
structure Host where
  rules : Multiset Rule
  ipForward : String
  touched : List Rule
  deriving DecidableEq

/-- How a rule is handled: whether `iptables -C` can be started, and whether the command that
changes the rule succeeds. -/
structure Attempt where
  launches : Bool
  changes : Bool
  deriving DecidableEq, Repr

/-- The error of a command, whose text has its output, is `none`. -/
def ruleExists (a : Attempt) (rule : Rule) (h : Host) : Outcome Bool :=
  if a.launches then .ok (rule ∈ h.rules) else .error (some "failed to execute iptables -C")

def ensureRule (a : Attempt) (rule : Rule) (h : Host) : Outcome Bool × Host :=
  match ruleExists a rule h with
  | .error cause => (.error cause,h)
  | .ok true => (.ok false,h)
  | .ok false =>
    if a.changes then (.ok true,{h with rules := rule ::ₘ h.rules, touched := h.touched++[rule]})
    else (.error none,h)

/-- The result is not used: every caller ignores errors. -/
def removeRule (a : Attempt) (rule : Rule) (h : Host) : Host :=
  match ruleExists a rule h with
  | .ok true =>
    if a.changes then {h with rules := h.rules.erase rule, touched := h.touched++[rule]} else h
  | _ => h

end Host

section Code

structure ServerSection where
  forwardingMode : String
  tunName : String
  tunCidr : String
  tunEgressInterface : String
  deriving DecidableEq, Repr

/-- What `setup` finds and how its steps go; the routes are the text of `/proc/net/route`, if it
can be read. -/
structure Env where
  linux : Bool
  tunNode : Bool
  inPath : String → Bool
  parseIpv4 : String → Option Ipv4Addr
  createTun : Bool
  configureTun : Bool
  routes : Option String
  readForward : Bool
  writeForward : Bool
  masquerade : Attempt
  forwardOut : Attempt
  forwardIn : Attempt

/-- How the commands of `drop` go. -/
structure Cleanup where
  forwardIn : Attempt
  forwardOut : Attempt
  masquerade : Attempt
  restore : Bool
  deriving DecidableEq, Repr

structure Runtime where
  tunName : String
  originalIpForward : Option String
  masqueradeRuleInstalled : Bool
  forwardOutRuleInstalled : Bool
  forwardInRuleInstalled : Bool
  forwardingModeTun : Bool
  tunSubnet : Option String
  egressInterface : Option String
  deriving DecidableEq, Repr

def ensureToolAvailable (env : Env) (tool : String) : Outcome Unit :=
  if env.inPath tool then .ok ()
  else .error (some ("required command '"++tool++
    "' was not found in PATH; install it in the container image"))

def parseCidr (env : Env) (cidr : String) : Outcome (Ipv4Addr × ℕ) :=
  match splitOnce ['/'] cidr.toList with
  | none => .error (some ("invalid CIDR format: "++cidr))
  | some (addr,length) =>
    match env.parseIpv4 (String.ofList addr) with
    | none => .error (some ("invalid IPv4 address in CIDR: "++cidr))
    | some ip =>
      match parseUnsigned 256 length with
      | none => .error (some ("invalid CIDR prefix length: "++cidr))
      | some n =>
        if 32 < n then .error (some ("CIDR prefix must be between 0 and 32: "++cidr))
        else .ok (ip,n)

def toU32 (ip : Ipv4Addr) : UInt32 :=
  (ip.a.toUInt32 <<< 24) ||| (ip.b.toUInt32 <<< 16) ||| (ip.c.toUInt32 <<< 8) ||| ip.d.toUInt32

def ofU32 (n : UInt32) : Ipv4Addr :=
  ⟨(n >>> 24).toUInt8,(n >>> 16).toUInt8,(n >>> 8).toUInt8,n.toUInt8⟩

def cidrNetwork (addr : Ipv4Addr) (length : ℕ) : Ipv4Addr :=
  if length = 0 then ⟨0,0,0,0⟩
  else ofU32 (toU32 addr &&& ((0xffffffff : UInt32) <<< UInt32.ofNat (32-length)))

def ipText (ip : Ipv4Addr) : String :=
  toString ip.a.toNat++"."++toString ip.b.toNat++"."++toString ip.c.toNat++"."++
    toString ip.d.toNat

def splitWhitespace (line : List Char) : List (List Char) :=
  (line.splitOnP isWhitespace).filter (· ≠ [])

/-- The interface of the default route, whose destination is written `00000000`. -/
def defaultRoute (line : List Char) : Option String :=
  match splitWhitespace line with
  | interface::destination::_ =>
    if destination = "00000000".toList then some (String.ofList interface) else none
  | _ => none

def detectDefaultEgressInterface (env : Env) : Outcome (Option String) :=
  match env.routes with
  | none => .error (some "failed to read /proc/net/route while detecting egress interface")
  | some contents => .ok (((lines contents.toList).drop 1).findSome? defaultRoute)

def selectEgress (cfg : ServerSection) (env : Env) : Outcome String := do
  if trim cfg.tunEgressInterface = "" then
    match ← detectDefaultEgressInterface env with
    | none => .error (some ("could not detect default egress interface from /proc/net/route; "++
        "set server.tun_egress_interface"))
    | some interface => return interface
  else return cfg.tunEgressInterface

/-- The steps of `setup` before it reads `ip_forward`: the subnet and the egress interface. -/
def prepare (cfg : ServerSection) (env : Env) : Outcome (String × String) := do
  if env.linux = false then
    throw (some "forwarding_mode=tun is currently supported only on Linux")
  if env.tunNode = false then
    throw (some "/dev/net/tun not found. Run container with --device=/dev/net/tun")
  ensureToolAvailable env "ifconfig"
  ensureToolAvailable env "iptables"
  let (addr,length) ← parseCidr env cfg.tunCidr
  if env.createTun = false then throw (some ("failed to create TUN device "++cfg.tunName))
  if env.configureTun = false then throw (some ("failed to configure TUN interface "++cfg.tunName))
  let egress ← selectEgress cfg env
  return (ipText (cidrNetwork addr length)++"/"++toString length,egress)

def masqueradeRule (subnet egress : String) : Rule :=
  ⟨.nat,["POSTROUTING","-s",subnet,"-o",egress,"-j","MASQUERADE"]⟩

def forwardOutRule (tunName egress : String) : Rule :=
  ⟨.filter,["FORWARD","-i",tunName,"-o",egress,"-j","ACCEPT"]⟩

def forwardInRule (tunName egress : String) : Rule :=
  ⟨.filter,["FORWARD","-i",egress,"-o",tunName,"-m","state","--state","RELATED,ESTABLISHED","-j",
    "ACCEPT"]⟩

/-- Each flag is set as soon as its rule is handled; an error leaves the flags set so far. -/
def ensureIptablesRules (env : Env) (subnet egress : String) (r : Runtime) (h : Host) :
    Outcome Unit × Runtime × Host :=
  match ensureRule env.masquerade (masqueradeRule subnet egress) h with
  | (.error _,h) => (.error (some "failed to configure NAT masquerade rule"),r,h)
  | (.ok installed,h) =>
    let r := {r with masqueradeRuleInstalled := installed}
    match ensureRule env.forwardOut (forwardOutRule r.tunName egress) h with
    | (.error _,h) => (.error (some "failed to configure forward outbound rule"),r,h)
    | (.ok installed,h) =>
      let r := {r with forwardOutRuleInstalled := installed}
      match ensureRule env.forwardIn (forwardInRule r.tunName egress) h with
      | (.error _,h) => (.error (some "failed to configure forward inbound rule"),r,h)
      | (.ok installed,h) => (.ok (),{r with forwardInRuleInstalled := installed},h)

def dropForwardRules (c : Cleanup) (r : Runtime) (h : Host) : Host :=
  match r.egressInterface with
  | none => h
  | some egress =>
    let h := if r.forwardInRuleInstalled
      then removeRule c.forwardIn (forwardInRule r.tunName egress) h else h
    if r.forwardOutRuleInstalled
      then removeRule c.forwardOut (forwardOutRule r.tunName egress) h else h

def dropMasqueradeRule (c : Cleanup) (r : Runtime) (h : Host) : Host :=
  if r.masqueradeRuleInstalled then
    match r.tunSubnet, r.egressInterface with
    | some subnet, some egress => removeRule c.masquerade (masqueradeRule subnet egress) h
    | _, _ => h
  else h

def restoreIpForward (c : Cleanup) (r : Runtime) (h : Host) : Host :=
  match r.originalIpForward with
  | none => h
  | some value => if c.restore then {h with ipForward := value++"\n"} else h

def drop (c : Cleanup) (r : Runtime) (h : Host) : Host :=
  if r.forwardingModeTun = false then h
  else restoreIpForward c r (dropMasqueradeRule c r (dropForwardRules c r h))

/-- An error after the runtime was made drops it. -/
def setup (cfg : ServerSection) (env : Env) (c : Cleanup) (h : Host) : Outcome Runtime × Host :=
  if eqIgnoreAsciiCase cfg.forwardingMode "tun" = false then
    (.ok ⟨cfg.tunName,none,false,false,false,false,none,none⟩,h)
  else
    match prepare cfg env with
    | .error cause => (.error cause,h)
    | .ok (subnet,egress) =>
      let originalIpForward := if env.readForward then some (trim h.ipForward) else none
      if env.writeForward = false then
        (.error (some "failed to enable net.ipv4.ip_forward; ensure NET_ADMIN capability"),h)
      else
        let r : Runtime :=
          ⟨cfg.tunName,originalIpForward,false,false,false,true,some subnet,some egress⟩
        match ensureIptablesRules env subnet egress r {h with ipForward := "1\n"} with
        | (.error cause,r,h) => (.error cause,drop c r h)
        | (.ok (),r,h) => (.ok r,h)

/-- The host when `setup` has failed, or when the runtime it returned was dropped. -/
def setupAndDrop (cfg : ServerSection) (env : Env) (c : Cleanup) (h : Host) : Host :=
  match setup cfg env c h with
  | (.error _,h) => h
  | (.ok r,h) => drop c r h

end Code

section Undo

variable {allowed : List Rule} {before h : Host} {added : Multiset Rule} {rule : Rule}
  {a : Attempt}

/-- The host is as before but for some rules that were added; only rules that are allowed and
were not there have been touched. -/
structure Extends (allowed : List Rule) (before h : Host) (added : Multiset Rule) : Prop where
  rules : h.rules = before.rules+added
  touched : ∃ log, h.touched = before.touched++log ∧
    ∀ rule ∈ log, rule ∈ allowed ∧ rule ∉ before.rules
  fresh : ∀ rule ∈ added, rule ∈ allowed ∧ rule ∉ before.rules

theorem Extends.refl (allowed : List Rule) (h : Host) : Extends allowed h h 0 :=
  ⟨(Multiset.add_zero h.rules).symm,⟨[],(List.append_nil _).symm,by simp⟩,by simp⟩

theorem Extends.touch (he : Extends allowed before h added)
    (hrule : rule ∈ allowed ∧ rule ∉ before.rules) :
    ∃ log, h.touched++[rule] = before.touched++log ∧
      ∀ rule ∈ log, rule ∈ allowed ∧ rule ∉ before.rules := by
  obtain ⟨log,hlog,hfresh⟩ := he.touched
  refine ⟨log++[rule],by rw [hlog,List.append_assoc],?_⟩
  intro x hx
  rcases List.mem_append.mp hx with hx | hx
  · exact hfresh x hx
  · rw [List.mem_singleton.mp hx]
    exact hrule

def ofFlag (installed : Bool) (rule : Rule) : Multiset Rule := if installed then {rule} else 0

@[simp] theorem ofFlag_true (rule : Rule) : ofFlag true rule = {rule} := rfl

@[simp] theorem ofFlag_false (rule : Rule) : ofFlag false rule = 0 := rfl

/-- A rule that is ensured is added if it was not there, and its flag says so; an error adds
nothing. -/
theorem ensureRule_extends (he : Extends allowed before h added) (hrule : rule ∈ allowed) :
    ∃ installed h', Extends allowed before h' (added+ofFlag installed rule) ∧
      h'.ipForward = h.ipForward ∧
      (ensureRule a rule h = (.ok installed,h') ∨
        installed = false ∧ ∃ cause, ensureRule a rule h = (.error cause,h')) := by
  have hsame : Extends allowed before h (added+ofFlag false rule) := by
    rw [ofFlag_false,Multiset.add_zero]
    exact he
  unfold ensureRule ruleExists
  cases a.launches with
  | false => exact ⟨false,h,hsame,rfl,.inr ⟨rfl,_,rfl⟩⟩
  | true =>
    by_cases hmem : rule ∈ h.rules
    · refine ⟨false,h,hsame,rfl,.inl ?_⟩
      simp [hmem]
    · cases hchanges : a.changes with
      | false =>
        refine ⟨false,h,hsame,rfl,.inr ⟨rfl,none,?_⟩⟩
        simp [hmem]
      | true =>
        have hnew : rule ∈ allowed ∧ rule ∉ before.rules := by
          refine ⟨hrule,fun hold => hmem ?_⟩
          rw [he.rules]
          exact Multiset.mem_add.mpr (.inl hold)
        refine ⟨true,{h with rules := rule ::ₘ h.rules, touched := h.touched++[rule]},
          ⟨?_,he.touch hnew,?_⟩,rfl,.inl ?_⟩
        · change rule ::ₘ h.rules = before.rules+(added+ofFlag true rule)
          rw [he.rules,ofFlag_true,← Multiset.singleton_add,Multiset.add_comm,Multiset.add_assoc]
        · intro x hx
          rcases Multiset.mem_add.mp hx with hx | hx
          · exact he.fresh x hx
          · rw [ofFlag_true,Multiset.mem_singleton] at hx
            rw [hx]
            exact hnew
        · simp [hmem]

def Attempt.Succeeds (a : Attempt) : Prop := a.launches = true ∧ a.changes = true

theorem removeRule_extends {installed : Bool} (ha : a.Succeeds)
    (he : Extends allowed before h (added+ofFlag installed rule)) :
    Extends allowed before (if installed then removeRule a rule h else h) added := by
  cases installed with
  | false =>
    rw [ofFlag_false,Multiset.add_zero] at he
    exact he
  | true =>
    have hrule : rule ∈ added+ofFlag true rule :=
      Multiset.mem_add.mpr (.inr (Multiset.mem_singleton_self rule))
    have hmem : rule ∈ h.rules := by
      rw [he.rules]
      exact Multiset.mem_add.mpr (.inr hrule)
    have hremoved : removeRule a rule h =
        {h with rules := h.rules.erase rule, touched := h.touched++[rule]} := by
      simp [removeRule,ruleExists,ha.1,ha.2,hmem]
    rw [if_pos rfl,hremoved]
    refine ⟨?_,he.touch (he.fresh rule hrule),fun x hx => he.fresh x ?_⟩
    · change h.rules.erase rule = before.rules+added
      rw [he.rules,ofFlag_true,← Multiset.add_assoc,Multiset.add_comm,Multiset.singleton_add,
        Multiset.erase_cons_head]
    · exact Multiset.mem_add.mpr (.inl hx)

end Undo

section Runs

variable {tunName subnet egress : String} {before h : Host} {c : Cleanup}

def rulesOf (tunName subnet egress : String) : List Rule :=
  [masqueradeRule subnet egress,forwardOutRule tunName egress,forwardInRule tunName egress]

def installed (tunName subnet egress : String) (masquerade out inn : Bool) : Multiset Rule :=
  ofFlag masquerade (masqueradeRule subnet egress)+ofFlag out (forwardOutRule tunName egress)+
    ofFlag inn (forwardInRule tunName egress)

/-- The runtime of a TUN device, with its flags. -/
def made (tunName subnet egress : String) (original : Option String) (masquerade out inn : Bool) :
    Runtime :=
  ⟨tunName,original,masquerade,out,inn,true,some subnet,some egress⟩

/-- However far the rules get, the flags say which of them were added. -/
theorem ensureIptablesRules_extends (env : Env) (original : Option String)
    (hbefore : Extends (rulesOf tunName subnet egress) before h 0) :
    ∃ outcome masquerade out inn h',
      ensureIptablesRules env subnet egress
          (made tunName subnet egress original false false false) h =
        (outcome,made tunName subnet egress original masquerade out inn,h') ∧
      Extends (rulesOf tunName subnet egress) before h'
        (installed tunName subnet egress masquerade out inn) := by
  have hmasquerade : masqueradeRule subnet egress ∈ rulesOf tunName subnet egress := by
    simp [rulesOf]
  have hout : forwardOutRule tunName egress ∈ rulesOf tunName subnet egress := by simp [rulesOf]
  have hinn : forwardInRule tunName egress ∈ rulesOf tunName subnet egress := by simp [rulesOf]
  obtain ⟨m,h₁,hext₁,-,hstep₁⟩ := ensureRule_extends (a := env.masquerade) hbefore hmasquerade
  obtain ⟨o,h₂,hext₂,-,hstep₂⟩ := ensureRule_extends (a := env.forwardOut) hext₁ hout
  obtain ⟨n,h₃,hext₃,-,hstep₃⟩ := ensureRule_extends (a := env.forwardIn) hext₂ hinn
  rw [Multiset.zero_add] at hext₁ hext₂ hext₃
  unfold ensureIptablesRules installed
  rcases hstep₁ with hstep₁ | ⟨rfl,cause,hstep₁⟩
  · rcases hstep₂ with hstep₂ | ⟨rfl,cause,hstep₂⟩
    · rcases hstep₃ with hstep₃ | ⟨rfl,cause,hstep₃⟩
      · exact ⟨_,m,o,n,h₃,by simp only [made,hstep₁,hstep₂,hstep₃]; rfl,hext₃⟩
      · exact ⟨_,m,o,false,h₃,by simp only [made,hstep₁,hstep₂,hstep₃]; rfl,hext₃⟩
    · refine ⟨_,m,false,false,h₂,by simp only [made,hstep₁,hstep₂]; rfl,?_⟩
      rwa [ofFlag_false (forwardInRule _ _),Multiset.add_zero]
  · refine ⟨_,false,false,false,h₁,by simp only [made,hstep₁]; rfl,?_⟩
    rwa [ofFlag_false (forwardInRule _ _),Multiset.add_zero,
      ofFlag_false (forwardOutRule _ _),Multiset.add_zero]

def Cleanup.Succeeds (c : Cleanup) : Prop :=
  c.forwardIn.Succeeds ∧ c.forwardOut.Succeeds ∧ c.masquerade.Succeeds ∧ c.restore = true

/-- Dropping the runtime takes back the rules of its flags and restores the text. -/
theorem drop_extends {masquerade out inn : Bool} (hc : c.Succeeds) (value : String)
    (he : Extends (rulesOf tunName subnet egress) before h
      (installed tunName subnet egress masquerade out inn)) :
    Extends (rulesOf tunName subnet egress) before
        (drop c (made tunName subnet egress (some value) masquerade out inn) h) 0 ∧
      (drop c (made tunName subnet egress (some value) masquerade out inn) h).ipForward =
        value++"\n" := by
  obtain ⟨hinn,hout,hmasquerade,hrestore⟩ := hc
  rw [installed,← Multiset.zero_add (ofFlag masquerade _)] at he
  generalize hr : made tunName subnet egress (some value) masquerade out inn = r
  have hforward : Extends (rulesOf tunName subnet egress) before (dropForwardRules c r h)
      (0+ofFlag masquerade (masqueradeRule subnet egress)) := by
    subst hr
    exact removeRule_extends hout (removeRule_extends hinn he)
  have hrules : Extends (rulesOf tunName subnet egress) before
      (dropMasqueradeRule c r (dropForwardRules c r h)) 0 := by
    subst hr
    exact removeRule_extends hmasquerade hforward
  have hdrop : drop c r h =
      {dropMasqueradeRule c r (dropForwardRules c r h) with ipForward := value++"\n"} := by
    subst hr
    simp [drop,restoreIpForward,made,hrestore]
  rw [hdrop]
  exact ⟨⟨hrules.rules,hrules.touched,hrules.fresh⟩,rfl⟩

/-- What `setup` does: nothing, or it makes a runtime whose flags say which rules were added,
and drops it if there was an error. -/
theorem setup_cases (cfg : ServerSection) (env : Env) (c : Cleanup) (h : Host)
    (hread : env.readForward = true) :
    (∃ cause, setup cfg env c h = (.error cause,h)) ∨
      (∃ r, setup cfg env c h = (.ok r,h) ∧ r.forwardingModeTun = false) ∨
      ∃ subnet egress masquerade out inn h', prepare cfg env = .ok (subnet,egress) ∧
        Extends (rulesOf cfg.tunName subnet egress) h h'
          (installed cfg.tunName subnet egress masquerade out inn) ∧
        let r := made cfg.tunName subnet egress (some (trim h.ipForward)) masquerade out inn
        (setup cfg env c h = (.ok r,h') ∨
          ∃ cause, setup cfg env c h = (.error cause,drop c r h')) := by
  by_cases hmode : eqIgnoreAsciiCase cfg.forwardingMode "tun" = false
  · refine .inr (.inl ⟨⟨cfg.tunName,none,false,false,false,false,none,none⟩,?_,rfl⟩)
    simp only [setup,if_pos hmode]
  · cases hprepare : prepare cfg env with
    | error cause =>
      refine .inl ⟨cause,?_⟩
      simp only [setup,if_neg hmode,hprepare]
    | ok interfaces =>
      obtain ⟨subnet,egress⟩ := interfaces
      cases hwrite : env.writeForward with
      | false =>
        refine .inl ⟨some "failed to enable net.ipv4.ip_forward; ensure NET_ADMIN capability",?_⟩
        simp only [setup,if_neg hmode,hprepare,hwrite,if_true]
      | true =>
        have hsame := Extends.refl (rulesOf cfg.tunName subnet egress) h
        have hbefore : Extends (rulesOf cfg.tunName subnet egress) h {h with ipForward := "1\n"} 0 :=
          ⟨hsame.rules,hsame.touched,hsame.fresh⟩
        obtain ⟨outcome,m,o,n,h',hrun,hext⟩ :=
          ensureIptablesRules_extends env (some (trim h.ipForward)) hbefore
        refine .inr (.inr ⟨subnet,egress,m,o,n,h',rfl,hext,?_⟩)
        cases outcome with
        | ok u =>
          left
          simp only [made] at hrun
          simp only [setup,if_neg hmode,hprepare,hwrite,hread,if_true,hrun,made]
          rfl
        | error cause =>
          right
          refine ⟨cause,?_⟩
          simp only [made] at hrun
          simp only [setup,if_neg hmode,hprepare,hwrite,hread,if_true,hrun,made]
          rfl

/-- A rule that `setup` may touch: one of the three rules of the device. -/
def Own (cfg : ServerSection) (env : Env) (rule : Rule) : Prop :=
  ∃ subnet egress, prepare cfg env = .ok (subnet,egress) ∧ rule ∈ rulesOf cfg.tunName subnet egress

theorem Extends.own {cfg : ServerSection} {env : Env} {added : Multiset Rule}
    (hprepare : prepare cfg env = .ok (subnet,egress))
    (he : Extends (rulesOf cfg.tunName subnet egress) before h added) :
    ∃ log, h.touched = before.touched++log ∧
      ∀ rule ∈ log, rule ∉ before.rules ∧ Own cfg env rule := by
  obtain ⟨log,hlog,hfresh⟩ := he.touched
  refine ⟨log,hlog,fun rule hrule => ?_⟩
  obtain ⟨hallowed,hnew⟩ := hfresh rule hrule
  exact ⟨hnew,subnet,egress,hprepare,hallowed⟩

/-- Whatever fails in `setup`, the rules and the forwarding flag are as before when it has failed
or its runtime was dropped. Only rules of the device that were not there are ever touched, also
while the runtime lives. -/
theorem setup_is_undone (cfg : ServerSection) (env : Env) (c : Cleanup) (h : Host)
    (hread : env.readForward = true) (hc : c.Succeeds) :
    (setupAndDrop cfg env c h).rules = h.rules ∧
      trim (setupAndDrop cfg env c h).ipForward = trim h.ipForward ∧
      (∃ log, (setupAndDrop cfg env c h).touched = h.touched++log ∧
        ∀ rule ∈ log, rule ∉ h.rules ∧ Own cfg env rule) ∧
      ∀ r h', setup cfg env c h = (.ok r,h') → ∀ rule, rule ∈ h.rules ∨ ¬ Own cfg env rule →
        h'.rules.count rule = h.rules.count rule := by
  have hnone : ∃ log, h.touched = h.touched++log ∧ ∀ rule ∈ log, rule ∉ h.rules ∧ Own cfg env rule :=
    ⟨[],(List.append_nil _).symm,by simp⟩
  rcases setup_cases cfg env c h hread with ⟨cause,hsetup⟩ | ⟨r,hsetup,hmode⟩ |
    ⟨subnet,egress,m,o,n,h',hprepare,hext,hsetup⟩
  · refine ⟨?_,?_,?_,?_⟩
    · simp only [setupAndDrop,hsetup]
    · simp only [setupAndDrop,hsetup]
    · simpa only [setupAndDrop,hsetup] using hnone
    · intro r h' hok
      rw [hsetup] at hok
      cases hok
  · have hdrop : drop c r h = h := if_pos hmode
    refine ⟨?_,?_,?_,?_⟩
    · simp only [setupAndDrop,hsetup,hdrop]
    · simp only [setupAndDrop,hsetup,hdrop]
    · simpa only [setupAndDrop,hsetup,hdrop] using hnone
    · intro r' h' hok rule _
      rw [hsetup] at hok
      cases hok
      rfl
  · obtain ⟨hafter,htext⟩ := drop_extends hc (trim h.ipForward) hext
    have hend : setupAndDrop cfg env c h =
        drop c (made cfg.tunName subnet egress (some (trim h.ipForward)) m o n) h' := by
      rcases hsetup with hsetup | ⟨cause,hsetup⟩ <;> simp only [setupAndDrop,hsetup]
    rw [hend]
    refine ⟨hafter.rules.trans (Multiset.add_zero h.rules),?_,hafter.own hprepare,?_⟩
    · rw [htext]
      exact trim_blank_after h.ipForward (by decide)
    · intro r h'' hok rule hrule
      rcases hsetup with hsetup | ⟨cause,hsetup⟩
      · rw [hsetup] at hok
        cases hok
        have hzero : rule ∉ installed cfg.tunName subnet egress m o n := by
          intro hmem
          obtain ⟨hallowed,hnew⟩ := hext.fresh rule hmem
          rcases hrule with hold | hnot
          · exact hnew hold
          · exact hnot ⟨subnet,egress,hprepare,hallowed⟩
        rw [hext.rules,Multiset.count_add,Multiset.count_eq_zero_of_notMem hzero,Nat.add_zero]
      · rw [hsetup] at hok
        cases hok

/-- A device whose outbound rule is there already and whose inbound rule cannot be added. -/
def demoSection : ServerSection := ⟨"tun","bonded0","100.64.0.1/24","eth0"⟩

def demoEnv : Env where
  linux := true
  tunNode := true
  inPath _ := true
  parseIpv4 _ := some ⟨100,64,0,1⟩
  createTun := true
  configureTun := true
  routes := none
  readForward := true
  writeForward := true
  masquerade := ⟨true,true⟩
  forwardOut := ⟨true,true⟩
  forwardIn := ⟨true,false⟩

def demoCleanup : Cleanup := ⟨⟨true,true⟩,⟨true,true⟩,⟨true,true⟩,true⟩

def demoHost : Host := ⟨{forwardOutRule "bonded0" "eth0"},"0\n",[]⟩

theorem failed_setup_is_undone :
    (setup demoSection demoEnv demoCleanup demoHost).1 =
        .error (some "failed to configure forward inbound rule") ∧
      (setupAndDrop demoSection demoEnv demoCleanup demoHost).touched =
        [masqueradeRule "100.64.0.0/24" "eth0",masqueradeRule "100.64.0.0/24" "eth0"] ∧
      (setupAndDrop demoSection demoEnv demoCleanup demoHost).rules = demoHost.rules :=
  ⟨by decide +kernel,by decide +kernel,
    (setup_is_undone demoSection demoEnv demoCleanup demoHost rfl
      ⟨⟨rfl,rfl⟩,⟨rfl,rfl⟩,⟨rfl,rfl⟩,rfl⟩).1⟩

end Runs

end Bonded.NetworkRuntime
