import Mathlib.Algebra.Group.Nat.Defs

/-!
# The egress floor

A guest's request goes through a dialer that asks the operator's list and the tenant's list for the
host, resolves it, refuses every answer in a denied range and dials the first one. A range holds
no address with a zone, as `net/netip` has it, so the floor rests on the resolver: what it answers
are bytes, and an address that is made of bytes has no zone. Loopback is not allowed to tests here.

The lists, the resolver, the lookup that a test may put in its place and the parsing of addresses
are arbitrary functions.
-/
namespace Cleat

/-- An address by its bits. Only IPv6 addresses have zones. -/
inductive Addr where
  | v4 (bits : BitVec 32)
  | v6 (bits : BitVec 128) (zone : String)
  deriving DecidableEq

/-- An IPv4-mapped address is an IPv4 address, without a zone. -/
def Addr.unmap : Addr → Addr
  | .v6 bits zone =>
    if bits.toNat / 2 ^ 32 = 0xffff then .v4 (bits.setWidth 32) else .v6 bits zone
  | addr => addr

def Addr.zone : Addr → String
  | .v4 _ => ""
  | .v6 _ zone => zone

def Addr.withoutZone : Addr → Addr
  | .v4 bits => .v4 bits
  | .v6 bits _ => .v6 bits ""

/-- The address of four or sixteen bytes. Others are none. -/
def addrFromSlice (slice : List (BitVec 8)) : Option Addr :=
  let bits := slice.foldl (fun bits byte => bits * 256 + byte.toNat) 0
  if slice.length = 4 then some (.v4 (BitVec.ofNat 32 bits))
  else if slice.length = 16 then some (.v6 (BitVec.ofNat 128 bits) "")
  else none

inductive Prefix where
  | v4 (bits : BitVec 32) (length : Nat)
  | v6 (bits : BitVec 128) (length : Nat)

/-- Two words of a width have the same first bits. -/
def agree {w : Nat} (length : Nat) (one two : BitVec w) : Bool :=
  one.toNat / 2 ^ (w - length) = two.toNat / 2 ^ (w - length)

def Prefix.contains : Prefix → Addr → Bool
  | .v4 bits length, .v4 addr => agree length bits addr
  | .v6 bits length, .v6 addr zone => zone = "" && agree length bits addr
  | _, _ => false

def Prefix.overlaps : Prefix → Prefix → Bool
  | .v4 one short, .v4 two long => agree (min short long) one two
  | .v6 one short, .v6 two long => agree (min short long) one two
  | _, _ => false

structure DeniedRange where
  cidr : Prefix
  why : String
  exemptible : Bool
  whyNotExemptible : String

/-- An IPv4 range and an IPv6 range by its first group. -/
def v4Range (a b c d length : Nat) : Prefix :=
  .v4 (BitVec.ofNat 32 (((a * 256 + b) * 256 + c) * 256 + d)) length

def v6Range (group length : Nat) : Prefix := .v6 (BitVec.ofNat 128 (group * 2 ^ 112)) length

def deniedRanges : List DeniedRange := [
  ⟨v4Range 127 0 0 0 8, "loopback: the worker's own API and admin surface", true, ""⟩,
  ⟨.v6 1 128, "loopback, IPv6", true, ""⟩,
  ⟨v4Range 10 0 0 0 8, "RFC1918 private: the network the worker sits in", true, ""⟩,
  ⟨v4Range 172 16 0 0 12, "RFC1918 private", true, ""⟩,
  ⟨v4Range 192 168 0 0 16, "RFC1918 private", true, ""⟩,
  ⟨v4Range 100 64 0 0 10,
    "RFC6598 carrier-grade NAT: not public, and routable inside many hosts", true, ""⟩,
  ⟨v6Range 0xfc00 7, "IPv6 unique local, the RFC1918 equivalent", true, ""⟩,
  ⟨v4Range 169 254 0 0 16,
    "link-local, and 169.254.169.254 is cloud instance metadata -- often credentials", false,
    "the metadata endpoint is the target the floor exists to refuse; an exemption here would " ++
      "hand out cloud credentials to whatever supplied the endpoint"⟩,
  ⟨v6Range 0xfe80 10, "link-local, IPv6", false,
    "same as 169.254.0.0/16, and reachable by the same mistake"⟩,
  ⟨v4Range 0 0 0 0 8, "unspecified / this-network: 0.0.0.0 reaches loopback on several stacks", false,
    "not an address anyone configures on purpose; it is what a blank or malformed endpoint " ++
      "parses to"⟩,
  ⟨.v6 0 128, "unspecified, IPv6", false, "same as 0.0.0.0/8"⟩,
  ⟨v4Range 224 0 0 0 4, "multicast: not a meaningful fetch target, and reaches local segments", false,
    "a unicast HTTP endpoint is never multicast; naming one means the endpoint is wrong"⟩,
  ⟨v6Range 0xff00 8, "multicast, IPv6", false, "same as 224.0.0.0/4"⟩,
  ⟨v4Range 192 0 0 0 24, "IETF protocol assignments, including NAT64 and DS-Lite endpoints", false,
    "protocol infrastructure, not a service an operator runs"⟩,
  ⟨v4Range 192 0 2 0 24,
    "TEST-NET-1: not routable, so reaching it means something local answered", false,
    "reaching it at all means something local answered for it, which is the case worth refusing"⟩,
  ⟨v4Range 198 18 0 0 15, "benchmarking range, routable inside some networks", false,
    "same as TEST-NET-1"⟩,
  ⟨v4Range 240 0 0 0 4,
    "reserved: no legitimate fetch target, and treated as local by some stacks", false,
    "reserved space; a service here is a misconfiguration whichever way it is reached"⟩]

structure EgressDeniedError where
  host : String
  ip : Option Addr
  reason : String

/-- A refusal, or a failure to do something. -/
inductive EgressError where
  | denied (err : EgressDeniedError)
  | failed (doing host reason : String)

/-- What the dialer calls. -/
inductive EgressAct where
  | operatorAllows (host : String)
  | allowHost (host : String)
  | lookup (host : String)
  | dial (addr : Addr) (port : String)
  deriving DecidableEq

/-- A part of the dialer: what it calls, and why it goes no further. -/
abbrev Gate := List EgressAct × Option EgressError

def Gate.andThen (first next : Gate) : Gate :=
  match first.2 with
  | some _ => first
  | none => (first.1 ++ next.1, next.2)

/-- The fields of a guard, as they are for one call; whether this call may have no tenant. The
lookup is set by tests only. -/
structure EgressGuard where
  operatorAllows : Option (String → Except String Bool)
  allowHost : Option (String → Except String Bool)
  pluginHostExempt : Option (String → Bool)
  tenantOptional : Bool
  resolver : String → Except String (List (List (BitVec 8)))
  lookup : Option (String → Except String (List Addr)) := none

/-- The parsing of the network library. -/
structure NetParsing where
  splitHostPort : String → Except String (String × String)
  parseAddr : String → Option Addr

namespace EgressGuard

variable (g : EgressGuard) (net : NetParsing) (host port address : String)

def exempts : Bool := g.pluginHostExempt.any (· host)

/-- The first range that holds the address decides. -/
def checkAddr (addr : Addr) : Option EgressDeniedError :=
  (deniedRanges.find? fun d => d.cidr.contains addr.unmap).bind fun d =>
    if d.exemptible && g.exempts host then none
    else some ⟨host, some addr.unmap,
      if !d.exemptible && g.exempts host then
        d.why ++ " -- and this range cannot be exempted: " ++ d.whyNotExemptible
      else d.why⟩

/-- A host that is an address in a denied range. -/
def literalGate : Gate :=
  ([], (net.parseAddr host).bind fun ip => (g.checkAddr host ip).map .denied)

/-- The answer of a list. -/
def listGate (act : EgressAct) (doing refusal : String) (answer : Except String Bool) : Gate :=
  ([act], match answer with
    | .error reason => some (.failed doing host reason)
    | .ok false => some (.denied ⟨host, none, refusal⟩)
    | .ok true => none)

def operatorGate : Gate :=
  match g.operatorAllows with
  | none => ([], none)
  | some allows => listGate host (.operatorAllows host) "checking the operator allowlist"
      "host is not on this deployment's egress allowlist (operator policy)" (allows host)

def tenantGate : Gate :=
  if g.tenantOptional then ([], none)
  else
    match g.allowHost with
    | none => ([], some (.denied ⟨host, none, "no egress allowlist is configured for this tenant, " ++
        "and an empty list permits nothing"⟩))
    | some allows => listGate host (.allowHost host) "checking the allowlist"
        "host is not on this tenant's egress allowlist" (allows host)

/-- The resolver's answer as addresses. -/
def lookupNetIP : Except String (List Addr) :=
  (g.resolver host).map (List.filterMap addrFromSlice)

/-- The answer to a lookup. -/
def ips : Except String (List Addr) := g.lookup.elim (g.lookupNetIP host) (· host)

/-- Resolve the host, check every answer and dial the first. -/
def resolve : Gate :=
  match g.ips host with
  | .error reason => ([.lookup host], some (.failed "resolving" host reason))
  | .ok [] => ([.lookup host], some (.failed "resolving" host "resolved to no addresses"))
  | .ok (first :: rest) =>
    match (first :: rest).findSome? (g.checkAddr host) with
    | some err => ([.lookup host], some (.denied err))
    | none => ([.lookup host, .dial first.unmap port], none)

def dialContext : Gate :=
  match net.splitHostPort address with
  | .error reason => ([], some (.failed "cannot parse address" address reason))
  | .ok (host, port) =>
    (g.literalGate net host).andThen ((g.operatorGate host).andThen
      ((g.tenantGate host).andThen (g.resolve host port)))

/-- The lists that are set, or have to be, permit the host. -/
def Permits : Prop :=
  (∀ allows ∈ g.operatorAllows, allows host = .ok true) ∧
    (g.tenantOptional = false → ∃ allows ∈ g.allowHost, allows host = .ok true)

/-- The questions to the lists. -/
def asked : List EgressAct :=
  (if g.operatorAllows.isSome then [.operatorAllows host] else []) ++
    if g.tenantOptional || g.allowHost.isNone then [] else [.allowHost host]

/-- An address whose number is in no denied range, except in an exemptible one for an exempted
host. -/
def Clear (addr : Addr) : Prop :=
  ∀ d ∈ deniedRanges, d.cidr.contains addr.withoutZone = true →
    d.exemptible = true ∧ g.exempts host = true

/-- The floor holds for a call: only the host is looked up, and only if the lists permit it; what
is dialled comes behind the questions to the lists and the lookup, is taken from the answer and
is clear. -/
def HoldsFloor : Prop :=
  (∀ name, .lookup name ∈ (g.dialContext net address).1 →
    g.Permits name ∧ ∃ port, net.splitHostPort address = .ok (name, port)) ∧
  ∀ addr port, .dial addr port ∈ (g.dialContext net address).1 → ∃ host ips ip,
    net.splitHostPort address = .ok (host, port) ∧ g.Permits host ∧
      (g.dialContext net address).1 = g.asked host ++ [.lookup host, .dial addr port] ∧
      g.ips host = .ok ips ∧ ip ∈ ips ∧ addr = ip.unmap ∧ g.Clear host addr

end EgressGuard

section Ranges

variable {w short long : Nat} {one two addr : BitVec w}

theorem agree_of_le (agrees : agree long one two = true) (le : short ≤ long) :
    agree short one two = true := by
  have split : 2 ^ (w - short) = 2 ^ (w - long) * 2 ^ (w - short - (w - long)) := by
    rw [← Nat.pow_add]
    congr 1
    omega
  simp only [agree, decide_eq_true_eq] at agrees ⊢
  rw [split, ← Nat.div_div_eq_div_mul, agrees, Nat.div_div_eq_div_mul]

theorem agree_min (left : agree short one addr = true) (right : agree long two addr = true) :
    agree (min short long) one two = true := by
  have first := agree_of_le left (Nat.min_le_left short long)
  have second := agree_of_le right (Nat.min_le_right short long)
  simp only [agree, decide_eq_true_eq] at first second ⊢
  exact first.trans second.symm

/-- Ranges with an address in common overlap. -/
theorem Prefix.overlaps_of_contains {p q : Prefix} {addr : Addr} (left : p.contains addr = true)
    (right : q.contains addr = true) : p.overlaps q = true := by
  cases p <;> cases q <;> cases addr <;>
    simp only [contains, Bool.and_eq_true, Bool.false_eq_true] at left right
  · exact agree_min left right
  · exact agree_min left.2 right.2

/-- An exemptible range overlaps with no other. -/
theorem exemptible_of_overlaps : ∀ d ∈ deniedRanges, ∀ e ∈ deniedRanges,
    d.cidr.overlaps e.cidr = true → d.exemptible = e.exemptible := by
  decide +kernel

end Ranges

namespace EgressGuard

variable {g : EgressGuard} {net : NetParsing} {host port address : String} {addr : Addr}
  {act : EgressAct}

/-- An address without a zone that passes the check is clear. -/
theorem clear_of_checkAddr (passes : g.checkAddr host addr = none) (unzoned : addr.unmap.zone = "") :
    g.Clear host addr.unmap := by
  intro d member holds
  have same : addr.unmap.withoutZone = addr.unmap := by
    cases read : addr.unmap with
    | v4 bits => rfl
    | v6 bits zone =>
      rw [read] at unzoned
      exact congrArg (Addr.v6 bits) unzoned.symm
  rw [same] at holds
  cases found : deniedRanges.find? fun d => d.cidr.contains addr.unmap with
  | none => exact absurd holds (List.find?_eq_none.mp found d member)
  | some e =>
    have held : e.cidr.contains addr.unmap = true := by simpa using List.find?_some found
    have alike := exemptible_of_overlaps d member e (List.mem_of_find?_eq_some found)
      (Prefix.overlaps_of_contains holds held)
    simpa [checkAddr, found, alike] using passes

theorem listGate_passes {doing refusal : String} {answer : Except String Bool} :
    (listGate host act doing refusal answer).2 = none ↔ answer = .ok true := by
  rcases answer with reason | _ | _ <;> simp [listGate]

theorem operatorGate_calls : (g.operatorGate host).1 =
    if g.operatorAllows.isSome then [.operatorAllows host] else [] := by
  unfold operatorGate
  split <;> simp_all [listGate]

attribute [local simp] operatorGate_calls

theorem tenantGate_calls : (g.tenantGate host).1 =
    if g.tenantOptional || g.allowHost.isNone then [] else [.allowHost host] := by
  unfold tenantGate
  split
  · simp_all
  · split <;> simp_all [listGate]

theorem permits_iff : g.Permits host ↔
    (g.operatorGate host).2 = none ∧ (g.tenantGate host).2 = none := by
  refine and_congr ?_ ?_
  · cases set : g.operatorAllows <;> simp [operatorGate, set, listGate_passes]
  · cases optional : g.tenantOptional <;> cases set : g.allowHost <;>
      simp [tenantGate, optional, set, listGate_passes]

attribute [local simp] literalGate

/-- A call comes to its lookup only if the lists permit the host, after it has asked them. -/
theorem dialContext_calls (split : net.splitHostPort address = .ok (host, port)) :
    (g.dialContext net address).1 = g.asked host ++ (g.resolve host port).1 ∧ g.Permits host ∨
      (g.dialContext net address).1 ⊆ g.asked host := by
  rw [dialContext, split, permits_iff]
  dsimp only [Gate.andThen]
  cases literal : (g.literalGate net host).2 with
  | some err => exact .inr (by simp)
  | none =>
    cases operator : (g.operatorGate host).2 with
    | some err => exact .inr (by simp [asked])
    | none =>
      cases tenant : (g.tenantGate host).2 with
      | some err =>
        exact .inr (by simp [tenantGate_calls, asked])
      | none =>
        exact .inl (by simp [tenantGate_calls, asked])

@[simp] theorem lookup_notMem_asked {name : String} : .lookup name ∉ g.asked host := by
  unfold asked
  grind

@[simp] theorem dial_notMem_asked : .dial addr port ∉ g.asked host := by
  unfold asked
  grind

/-- What comes behind the questions: a lookup, and a dial if every answer passes the check. -/
theorem resolve_calls (g : EgressGuard) (host port : String) :
    (g.resolve host port).1 = [.lookup host] ∨
    ∃ first rest, g.ips host = .ok (first :: rest) ∧ g.checkAddr host first = none ∧
      (g.resolve host port).1 = [.lookup host, .dial first.unmap port] := by
  unfold resolve
  rcases g.ips host with reason | _ | ⟨first, rest⟩
  · simp
  · simp
  · dsimp only
    cases found : (first :: rest).findSome? (g.checkAddr host) with
    | some err => exact .inl rfl
    | none =>
      exact .inr ⟨first, rest, rfl, List.findSome?_eq_none_iff.mp found first List.mem_cons_self, rfl⟩

theorem zone_addrFromSlice {slice : List (BitVec 8)} (read : addrFromSlice slice = some addr) :
    addr.zone = "" := by
  unfold addrFromSlice at read
  grind [Addr.zone]

theorem zone_unmap (unzoned : addr.zone = "") : addr.unmap.zone = "" := by
  cases addr <;> grind [Addr.unmap, Addr.zone]

/-- Every address of an answer is without a zone, if a lookup that is set gives none. -/
theorem ips_unzoned (seam : ∀ lookup ∈ g.lookup, ∀ ips, lookup host = .ok ips →
      ∀ ip ∈ ips, ip.zone = "") {ips : List Addr} (answer : g.ips host = .ok ips) :
    ∀ ip ∈ ips, ip.zone = "" := by
  cases set : g.lookup with
  | some lookup =>
    rw [EgressGuard.ips, set] at answer
    exact seam lookup set ips answer
  | none =>
    rw [EgressGuard.ips, set] at answer
    cases resolved : g.resolver host with
    | error reason => simp [lookupNetIP, resolved, Except.map] at answer
    | ok slices =>
      simp only [Option.elim, lookupNetIP, resolved, Except.map, Except.ok.injEq] at answer
      subst answer
      intro ip member
      obtain ⟨slice, _, read⟩ := List.mem_filterMap.mp member
      exact zone_addrFromSlice read

/-- The floor holds for every call, unless a lookup is set that answers with zones. The resolver
itself gives none.

Proof: a call either stops at its questions, or dials the first address of an answer that passed
the check, and a check without a zone passes only what is clear. -/
theorem floor_holds (g : EgressGuard) (net : NetParsing) (address : String)
    (seam : ∀ lookup ∈ g.lookup, ∀ host ips, lookup host = .ok ips → ∀ ip ∈ ips, ip.zone = "") :
    g.HoldsFloor net address := by
  cases split : net.splitHostPort address with
  | error reason =>
    have nothing : (g.dialContext net address).1 = [] := by rw [dialContext, split]
    simp [HoldsFloor, nothing]
  | ok parsed =>
    obtain ⟨host, port⟩ := parsed
    obtain ⟨calls, permits⟩ | short := dialContext_calls (g := g) split
    · obtain resolved | ⟨first, rest, answer, checked, resolved⟩ := g.resolve_calls host port
      · rw [HoldsFloor, calls, resolved]
        simpa using ⟨permits, port, split⟩
      · have unzoned : first.zone = "" :=
          ips_unzoned (fun lookup set => seam lookup set host) answer first List.mem_cons_self
        have clear : g.Clear host first.unmap := clear_of_checkAddr checked (zone_unmap unzoned)
        rw [HoldsFloor, calls, resolved]
        refine ⟨by simpa using ⟨permits, port, split⟩, fun addr port' member => ?_⟩
        obtain ⟨rfl, rfl⟩ : addr = first.unmap ∧ port' = port := by simpa using member
        exact ⟨host, _, first, split, permits, rfl, answer, List.mem_cons_self, rfl, clear⟩
    · exact ⟨fun name member => absurd (short member) lookup_notMem_asked,
        fun addr port' member => absurd (short member) dial_notMem_asked⟩

/-- A guard whose tenant may reach every host, and whose resolver knows one address. -/
def listedGuard (lookup : Option (String → Except String (List Addr))) : EgressGuard where
  operatorAllows := none
  allowHost := some fun _ => .ok true
  pluginHostExempt := none
  tenantOptional := false
  resolver _ := .ok [[93, 184, 215, 14]]
  lookup := lookup

/-- An address that splits into a host and a port. -/
def parsesTo (host : String) (literal : Option Addr) : NetParsing where
  splitHostPort _ := .ok (host, "80")
  parseAddr _ := literal

theorem floor_holds_resolved :
    ((listedGuard none).dialContext (parsesTo "example.com" none) "example.com:80").1 =
        [.allowHost "example.com", .lookup "example.com", .dial (.v4 0x5db8d70e) "80"] ∧
      (listedGuard none).HoldsFloor (parsesTo "example.com" none) "example.com:80" :=
  ⟨by decide +kernel, floor_holds _ _ _ (by simp [listedGuard])⟩

def linkLocal : Addr := .v6 (BitVec.ofNat 128 (0xfe80 * 2 ^ 112 + 1)) "eth0"

/-- A link-local address with a zone is dialled if the lookup answers with it. -/
theorem zoned_address_dialled :
    ¬(listedGuard (some fun _ => .ok [linkLocal])).HoldsFloor
      (parsesTo "fe80::1%eth0" (some linkLocal)) "[fe80::1%eth0]:80" := by
  rintro ⟨_, dials⟩
  obtain ⟨_, _, _, _, _, _, _, _, _, clear⟩ := dials linkLocal "80" (by decide +kernel)
  have denied := clear ⟨v6Range 0xfe80 10, "link-local, IPv6", false,
    "same as 169.254.0.0/16, and reachable by the same mistake"⟩ (by simp [deniedRanges])
    (by decide +kernel)
  cases denied.1

end EgressGuard

end Cleat
