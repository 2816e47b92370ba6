import Echo.Uploads.Machine

/-! The addresses a link preview may not be fetched from (`is_ssrf_target` and `validate_url` of
`routes/link_preview.rs`). The parser of URLs and the resolver are parameters. -/
namespace Echo.LinkPreview
open Echo.Uploads (AppError)

structure Ipv4Addr where
  (a b c d : UInt8)
deriving DecidableEq

namespace Ipv4Addr

def toBits (v4 : Ipv4Addr) : UInt32 :=
  v4.a.toUInt32 <<< 24 ||| v4.b.toUInt32 <<< 16 ||| v4.c.toUInt32 <<< 8 ||| v4.d.toUInt32

def isLoopback (v4 : Ipv4Addr) : Bool := v4.a == 127
def isUnspecified (v4 : Ipv4Addr) : Bool := v4 == ⟨0, 0, 0, 0⟩
def isBroadcast (v4 : Ipv4Addr) : Bool := v4 == ⟨255, 255, 255, 255⟩
def isLinkLocal (v4 : Ipv4Addr) : Bool := v4.a == 169 && v4.b == 254

def isPrivate (v4 : Ipv4Addr) : Bool :=
  v4.a == 10 || (v4.a == 172 && decide (16 ≤ v4.b) && decide (v4.b ≤ 31)) || (v4.a == 192 && v4.b == 168)

end Ipv4Addr

structure Ipv4Net where
  addr : Ipv4Addr
  prefixLen : Fin 33

namespace Ipv4Net

def hostmask (net : Ipv4Net) : UInt32 := UInt32.ofNat (2 ^ (32 - net.prefixLen.val) - 1)

def network (net : Ipv4Net) : UInt32 := net.addr.toBits &&& ~~~net.hostmask
def broadcast (net : Ipv4Net) : UInt32 := net.addr.toBits ||| net.hostmask

def contains (net : Ipv4Net) (v4 : Ipv4Addr) : Bool :=
  decide (net.network ≤ v4.toBits) && decide (v4.toBits ≤ net.broadcast)

end Ipv4Net

structure Ipv6Addr where
  (s0 s1 s2 s3 s4 s5 s6 s7 : UInt16)
deriving DecidableEq

def octets (segment : UInt16) : UInt8 × UInt8 := ((segment >>> 8).toUInt8, segment.toUInt8)
def segmentOf (high low : UInt8) : UInt16 := high.toUInt16 * 256 + low.toUInt16

namespace Ipv6Addr

def isLoopback (v6 : Ipv6Addr) : Bool := v6 == ⟨0, 0, 0, 0, 0, 0, 0, 1⟩
def isUnspecified (v6 : Ipv6Addr) : Bool := v6 == ⟨0, 0, 0, 0, 0, 0, 0, 0⟩
def isMulticast (v6 : Ipv6Addr) : Bool := v6.s0 &&& 0xff00 == 0xff00

def toIpv4Mapped (v6 : Ipv6Addr) : Option Ipv4Addr :=
  if (v6.s0, v6.s1, v6.s2, v6.s3, v6.s4, v6.s5) = (0, 0, 0, 0, 0, 0xffff) then
    some ⟨(octets v6.s6).1, (octets v6.s6).2, (octets v6.s7).1, (octets v6.s7).2⟩
  else none

end Ipv6Addr

inductive IpAddr where
  | v4 (addr : Ipv4Addr)
  | v6 (addr : Ipv6Addr)
deriving DecidableEq

def ssrfV4Denylist : List Ipv4Net :=
  [⟨⟨0, 0, 0, 0⟩, 8⟩, ⟨⟨100, 64, 0, 0⟩, 10⟩, ⟨⟨127, 0, 0, 0⟩, 8⟩, ⟨⟨169, 254, 0, 0⟩, 16⟩, ⟨⟨192, 0, 0, 0⟩, 24⟩,
    ⟨⟨192, 0, 2, 0⟩, 24⟩, ⟨⟨192, 168, 0, 0⟩, 16⟩, ⟨⟨198, 18, 0, 0⟩, 15⟩, ⟨⟨198, 51, 100, 0⟩, 24⟩,
    ⟨⟨203, 0, 113, 0⟩, 24⟩, ⟨⟨224, 0, 0, 0⟩, 4⟩, ⟨⟨240, 0, 0, 0⟩, 4⟩]

def isV4Denied (v4 : Ipv4Addr) : Bool := ssrfV4Denylist.any fun net => net.contains v4

def isV4Target (v4 : Ipv4Addr) : Bool :=
  v4.isLoopback || v4.isUnspecified || v4.isBroadcast || v4.isLinkLocal || v4.isPrivate || isV4Denied v4

def isSsrfTarget : IpAddr → Bool
  | .v4 v4 => isV4Target v4
  | .v6 v6 =>
    if v6.isLoopback || v6.isUnspecified || v6.isMulticast then true
    else
      match v6.toIpv4Mapped with
      | some v4 => isV4Target v4
      | none =>
        v6.s0 &&& 0xfe00 == 0xfc00 || v6.s0 &&& 0xffc0 == 0xfe80 || v6.s0 &&& 0xffc0 == 0xfec0 ||
          (v6.s0 == 0x2001 && v6.s1 == 0x0db8)

section Embeddings

inductive Embedding where
  | mapped | compatible | sixToFour | nat64
deriving DecidableEq

def Embedding.Carries (v4 : Ipv4Addr) (v6 : Ipv6Addr) : Embedding → Prop
  | mapped => v6 = ⟨0, 0, 0, 0, 0, 0xffff, segmentOf v4.a v4.b, segmentOf v4.c v4.d⟩
  | compatible => v6 = ⟨0, 0, 0, 0, 0, 0, segmentOf v4.a v4.b, segmentOf v4.c v4.d⟩
  | sixToFour => v6.s0 = 0x2002 ∧ v6.s1 = segmentOf v4.a v4.b ∧ v6.s2 = segmentOf v4.c v4.d
  | nat64 => v6 = ⟨0x64, 0xff9b, 0, 0, 0, 0, segmentOf v4.a v4.b, segmentOf v4.c v4.d⟩

variable {v4 : Ipv4Addr} {v6 : Ipv6Addr}

theorem segmentOf_toNat (high low : UInt8) : (segmentOf high low).toNat = high.toNat * 256 + low.toNat := by
  have bounds := And.intro high.toNat_lt low.toNat_lt
  simp only [segmentOf, UInt16.toNat_add, UInt16.toNat_mul, UInt8.toNat_toUInt16, UInt16.reduceToNat]
  omega

theorem octets_segmentOf (high low : UInt8) : octets (segmentOf high low) = (high, low) := by
  have bounds := And.intro high.toNat_lt low.toNat_lt
  have shift : 2 ^ ((8 : UInt16).toNat % 16) = 256 := rfl
  refine Prod.ext (UInt8.toNat_inj.mp ?_) (UInt8.toNat_inj.mp ?_)
  · simp only [octets, UInt16.toNat_toUInt8, UInt16.toNat_shiftRight, segmentOf_toNat, Nat.shiftRight_eq_div_pow,
      shift]
    omega
  · simp only [octets, UInt16.toNat_toUInt8, segmentOf_toNat]
    omega

theorem segmentOf_inj {a b c d : UInt8} : segmentOf a b = segmentOf c d ↔ a = c ∧ b = d := by
  constructor
  · intro same
    have split := octets_segmentOf a b
    rw [same, octets_segmentOf] at split
    exact ⟨(Prod.mk.inj split).1.symm, (Prod.mk.inj split).2.symm⟩
  · rintro ⟨rfl, rfl⟩
    rfl

theorem target_of_zero (zero : v6.s0 = 0) (notMapped : v6.toIpv4Mapped = none) :
    isSsrfTarget (.v6 v6) = true ↔ v6.isLoopback = true ∨ v6.isUnspecified = true := by
  have multicast : v6.isMulticast = false := by
    rw [Ipv6Addr.isMulticast, zero]
    rfl
  simp only [isSsrfTarget, multicast, notMapped, Bool.or_false, zero]
  rw [← Bool.or_eq_true]
  split
  · next early => exact iff_of_true rfl early
  · next late => exact iff_of_false Bool.false_ne_true late

theorem passes_of_first (first : v6.s0 = 0x64 ∨ v6.s0 = 0x2002) : isSsrfTarget (.v6 v6) = false := by
  have far : v6.s0 ≠ 0 := by rcases first with first | first <;> rw [first] <;> decide
  have loopback : v6.isLoopback = false := by
    refine beq_eq_false_iff_ne.mpr fun same => far ?_
    rw [same]
  have unspecified : v6.isUnspecified = false := by
    refine beq_eq_false_iff_ne.mpr fun same => far ?_
    rw [same]
  have notMapped : v6.toIpv4Mapped = none := if_neg fun same => far (Prod.mk.inj same).1
  have multicast : v6.isMulticast = false := by
    unfold Ipv6Addr.isMulticast
    rcases first with first | first <;> rw [first] <;> rfl
  simp only [isSsrfTarget, loopback, unspecified, multicast, notMapped]
  rcases first with first | first <;> rw [first] <;> rfl

theorem mapped_target (carries : Embedding.mapped.Carries v4 v6) (target : isSsrfTarget (.v4 v4) = true) :
    isSsrfTarget (.v6 v6) = true := by
  unfold Embedding.Carries at carries
  have mapped : v6.toIpv4Mapped = some v4 := by
    subst carries
    simp only [Ipv6Addr.toIpv4Mapped, octets_segmentOf, if_true]
  unfold isSsrfTarget
  dsimp only
  rw [mapped]
  split
  · rfl
  · exact target

theorem compatible_target (carries : Embedding.compatible.Carries v4 v6) :
    isSsrfTarget (.v6 v6) = true ↔ v4 = ⟨0, 0, 0, 0⟩ ∨ v4 = ⟨0, 0, 0, 1⟩ := by
  unfold Embedding.Carries at carries
  obtain ⟨a, b, c, d⟩ := v4
  have zeros : (0 : UInt16) = segmentOf 0 0 := rfl
  have one : (1 : UInt16) = segmentOf 0 1 := rfl
  have loopback : v6.isLoopback = true ↔ (a = 0 ∧ b = 0) ∧ c = 0 ∧ d = 1 := by
    subst carries
    rw [Ipv6Addr.isLoopback, beq_iff_eq, Ipv6Addr.mk.injEq, ← segmentOf_inj, ← segmentOf_inj]
    simp [← zeros, ← one]
  have unspecified : v6.isUnspecified = true ↔ (a = 0 ∧ b = 0) ∧ c = 0 ∧ d = 0 := by
    subst carries
    rw [Ipv6Addr.isUnspecified, beq_iff_eq, Ipv6Addr.mk.injEq, ← segmentOf_inj, ← segmentOf_inj]
    simp [← zeros]
  have notMapped : v6.toIpv4Mapped = none := by
    subst carries
    rfl
  have zero : v6.s0 = 0 := by rw [carries]
  rw [target_of_zero zero notMapped, loopback, unspecified, Ipv4Addr.mk.injEq, Ipv4Addr.mk.injEq, and_assoc, and_assoc,
    or_comm]

theorem embedded_target {embedding : Embedding} (carries : embedding.Carries v4 v6)
    (target : isSsrfTarget (.v4 v4) = true) : isSsrfTarget (.v6 v6) = true ↔
      embedding = .mapped ∨ embedding = .compatible ∧ (v4 = ⟨0, 0, 0, 0⟩ ∨ v4 = ⟨0, 0, 0, 1⟩) := by
  cases embedding with
  | mapped => exact iff_of_true (mapped_target carries target) (.inl rfl)
  | compatible =>
    rw [compatible_target carries]
    exact ⟨fun small => .inr ⟨rfl, small⟩, fun either => either.elim (fun same => by cases same) And.right⟩
  | sixToFour =>
    rw [passes_of_first (.inr carries.1)]
    exact iff_of_false Bool.false_ne_true (by rintro (same | ⟨same, -⟩) <;> cases same)
  | nat64 =>
    unfold Embedding.Carries at carries
    rw [passes_of_first (.inl (by rw [carries]))]
    exact iff_of_false Bool.false_ne_true (by rintro (same | ⟨same, -⟩) <;> cases same)

end Embeddings

structure SocketAddr where
  ip : IpAddr
  port : UInt16
deriving DecidableEq

/-- `reqwest::Url` and `tokio::net::lookup_host`; none of these is under `src`. -/
structure Network (Url : Type) where
  parse : String → Option Url
  hostStr : Url → Option String
  portOrKnownDefault : Url → Option UInt16
  lookupHost : String → UInt16 → Option (List SocketAddr)

structure ValidatedUrl (Url : Type) where
  url : Url
  host : String
  resolved : SocketAddr

def allowedPorts : List UInt16 := [80, 443]

section Validation
variable {Url : Type}

def pinned : List SocketAddr → Except AppError SocketAddr
  | [] => .error (.badRequest "Hostname did not resolve to any address")
  | first :: rest =>
    if (first :: rest).any fun addr => isSsrfTarget addr.ip then
      .error (.badRequest "URL resolves to a private or reserved address")
    else .ok first

def okOr {α : Type} (e : AppError) (found : Option α) : Except AppError α := found.elim (.error e) .ok
def require (condition : Bool) (e : AppError) : Except AppError Unit := if condition then .ok () else .error e

def isHttp (url : String) : Bool := "http://".toList.isPrefixOf url.toList || "https://".toList.isPrefixOf url.toList

def validateUrl (network : Network Url) (url : String) : Except AppError (ValidatedUrl Url) := do
  require (isHttp url) (.badRequest "URL must start with http:// or https://")
  let parsed ← okOr (.badRequest "Invalid URL") (network.parse url)
  let host ← okOr (.badRequest "URL has no host") (network.hostStr parsed)
  let port := (network.portOrKnownDefault parsed).getD 80
  require (allowedPorts.contains port) (.badRequest "URL port not permitted (only 80 and 443)")
  let addrs ← okOr (.badRequest "Could not resolve hostname") (network.lookupHost host port)
  let resolved ← pinned addrs
  return ⟨parsed, host, resolved⟩

theorem bind_eq_ok {α β : Type} {first : Except AppError α} {next : α → Except AppError β} {b : β} :
    first >>= next = .ok b ↔ ∃ a, first = .ok a ∧ next a = .ok b := by
  cases first with
  | error e => exact iff_of_false (by rintro ⟨⟩) (by rintro ⟨_, ⟨⟩, _⟩)
  | ok a => exact ⟨fun ok => ⟨a, rfl, ok⟩, by rintro ⟨_, ⟨⟩, ok⟩; exact ok⟩

theorem okOr_eq_ok {α : Type} {e : AppError} {found : Option α} {a : α} : okOr e found = .ok a ↔ found = some a := by
  cases found with
  | none => exact iff_of_false (by rintro ⟨⟩) (by rintro ⟨⟩)
  | some b => rw [okOr, Option.elim_some, Except.ok.injEq, Option.some.injEq]

theorem require_eq_ok {condition : Bool} {e : AppError} {u : Unit} : require condition e = .ok u ↔ condition =
    true := by
  cases condition with
  | false => exact iff_of_false (by rintro ⟨⟩) Bool.false_ne_true
  | true => exact iff_of_true rfl rfl

theorem pinned_eq_ok {addrs : List SocketAddr} {resolved : SocketAddr} :
    pinned addrs = .ok resolved ↔ addrs.head? = some resolved ∧ ∀ addr ∈ addrs, isSsrfTarget addr.ip = false := by
  cases addrs with
  | nil => simp [pinned]
  | cons first rest =>
    simp only [pinned]
    split
    · next some' =>
      obtain ⟨addr, inside, target⟩ := List.any_eq_true.mp some'
      refine iff_of_false (by rintro ⟨⟩) fun ⟨_, none'⟩ => ?_
      rw [none' addr inside] at target
      cases target
    · next none' =>
      rw [Bool.not_eq_true, List.any_eq_false] at none'
      simp only [Bool.not_eq_true] at none'
      rw [Except.ok.injEq, List.head?_cons, Option.some.injEq]
      exact ⟨fun same => ⟨same, none'⟩, And.left⟩

theorem validateUrl_eq_ok {network : Network Url} {url : String} {validated : ValidatedUrl Url} :
    validateUrl network url = .ok validated ↔ isHttp url = true ∧ network.parse url = some validated.url ∧
      network.hostStr validated.url = some validated.host ∧
      ∃ port ∈ allowedPorts, port = (network.portOrKnownDefault validated.url).getD 80 ∧
        ∃ addrs, network.lookupHost validated.host port = some addrs ∧ addrs.head? = some validated.resolved ∧
          ∀ addr ∈ addrs, isSsrfTarget addr.ip = false := by
  simp only [validateUrl, bind_eq_ok, okOr_eq_ok, require_eq_ok, pinned_eq_ok, pure, Except.pure, Except.ok.injEq]
  constructor
  · rintro ⟨-, http, parsed, parses, host, named, -, port, addrs, found, resolved, checked, rfl⟩
    exact ⟨http, parses, named, _, List.contains_iff_mem.mp port, rfl, addrs, found, checked⟩
  · rintro ⟨http, parses, named, _, port, rfl, addrs, found, checked⟩
    exact ⟨(), http, _, parses, _, named, (), List.contains_iff_mem.mpr port, addrs, found, _, checked, rfl⟩

end Validation

/-- Of the addresses that carry an internal one only the mapped are caught, and two compatible ones that are special by
themselves; whatever the resolver answers, nothing that is caught is let through. -/
theorem preview_targets {Url : Type} (network : Network Url) :
    (∀ (embedding : Embedding) (v4 : Ipv4Addr) (v6 : Ipv6Addr), embedding.Carries v4 v6 →
        isSsrfTarget (.v4 v4) = true → (isSsrfTarget (.v6 v6) = true ↔
          embedding = .mapped ∨ embedding = .compatible ∧ (v4 = ⟨0, 0, 0, 0⟩ ∨ v4 = ⟨0, 0, 0, 1⟩))) ∧
      ∀ (url : String) (validated : ValidatedUrl Url), validateUrl network url = .ok validated →
        ∃ port addrs, network.lookupHost validated.host port = some addrs ∧ validated.resolved ∈ addrs ∧
          ∀ addr ∈ addrs, isSsrfTarget addr.ip = false := by
  refine ⟨fun embedding v4 v6 carries target => embedded_target carries target, ?_⟩
  intro url validated ok
  obtain ⟨-, -, -, port, -, -, addrs, found, first, checked⟩ := validateUrl_eq_ok.mp ok
  exact ⟨port, addrs, found, List.mem_of_head? first, checked⟩

section Samples

def openSite : Network String where
  parse := some
  hostStr _ := some "example.com"
  portOrKnownDefault _ := some 443
  lookupHost _ port := some [⟨.v4 ⟨93, 184, 216, 34⟩, port⟩]

theorem preview_targets_sample :
    isSsrfTarget (.v6 ⟨0, 0, 0, 0, 0, 0xffff, 0xa9fe, 0xa9fe⟩) = true ∧
      isSsrfTarget (.v4 ⟨93, 184, 216, 34⟩) = false := by
  obtain ⟨embedded, validated⟩ := preview_targets openSite
  refine ⟨(embedded .mapped ⟨169, 254, 169, 254⟩ _ rfl (by decide)).mpr (.inl rfl), ?_⟩
  obtain ⟨port, addrs, found, -, checked⟩ := validated "https://example.com/"
    ⟨"https://example.com/", "example.com", ⟨.v4 ⟨93, 184, 216, 34⟩, 443⟩⟩ rfl
  obtain rfl := Option.some.inj found
  exact checked ⟨.v4 ⟨93, 184, 216, 34⟩, port⟩ List.mem_cons_self

/-- `2002:a00:1::` carries `10.0.0.1`. -/
theorem preview_targets_sixToFour :
    ¬ ((∀ (embedding : Embedding) (v4 : Ipv4Addr) (v6 : Ipv6Addr), embedding.Carries v4 v6 →
          isSsrfTarget (.v4 v4) = true → isSsrfTarget (.v6 v6) = true) ∧
        ∀ (Url : Type) (network : Network Url) (url : String) (validated : ValidatedUrl Url),
          validateUrl network url = .ok validated →
            ∃ port addrs, network.lookupHost validated.host port = some addrs ∧ validated.resolved ∈ addrs ∧
              ∀ addr ∈ addrs, isSsrfTarget addr.ip = false) := by
  rintro ⟨embedded, -⟩
  have caught := embedded .sixToFour ⟨10, 0, 0, 1⟩ ⟨0x2002, 0x0a00, 1, 0, 0, 0, 0, 0⟩ ⟨rfl, rfl, rfl⟩ (by decide)
  exact absurd caught (by decide)

end Samples
end Echo.LinkPreview
