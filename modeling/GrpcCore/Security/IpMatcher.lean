import Mathlib.Data.List.Basic

/-!
# Address ranges in authorization policies

`IpAuthorizationMatcher` (`matchers.cc`) keeps a masked address, and a call matches if its own
address, masked in the same way by `grpc_sockaddr_mask_bits` (`sockaddr_utils.cc`), has the same
bytes. The masks are words of the host, so that the order of their bytes matters: `Endian` is a
parameter. Ports and the other fields of a socket address are not read.
-/

namespace GrpcCore.IpMatcher

/-! ## Addresses -/

/-- The order of the bytes of a word in memory. -/
inductive Endian where
  | little
  | big

/-- Four bytes of memory: `in_addr`, or one of the `address_parts` of an `in6_addr`. -/
structure Bytes4 where
  b0 : BitVec 8
  b1 : BitVec 8
  b2 : BitVec 8
  b3 : BitVec 8
  deriving DecidableEq

namespace Bytes4

def load : Endian → Bytes4 → BitVec 32
  | .little, a => a.b3 ++ a.b2 ++ a.b1 ++ a.b0
  | .big, a => a.b0 ++ a.b1 ++ a.b2 ++ a.b3

def store : Endian → BitVec 32 → Bytes4
  | .little, w => ⟨w.extractLsb' 0 8, w.extractLsb' 8 8, w.extractLsb' 16 8, w.extractLsb' 24 8⟩
  | .big, w => ⟨w.extractLsb' 24 8, w.extractLsb' 16 8, w.extractLsb' 8 8, w.extractLsb' 0 8⟩

def zero : Bytes4 := ⟨0, 0, 0, 0⟩

end Bytes4

/-- `grpc_htonl`. -/
def htonl : Endian → BitVec 32 → BitVec 32
  | .little, w => w.extractLsb' 0 8 ++ w.extractLsb' 8 8 ++ w.extractLsb' 16 8 ++ w.extractLsb' 24 8
  | .big, w => w

structure In6Addr where
  p0 : Bytes4
  p1 : Bytes4
  p2 : Bytes4
  p3 : Bytes4
  deriving DecidableEq

/-- An address that `StringToSockaddr` returns. -/
inductive IpAddress where
  | inet (sinAddr : Bytes4)
  | inet6 (sin6Addr : In6Addr)

/-- `grpc_resolved_address`; zeroed memory has the family 0. -/
inductive ResolvedAddress where
  | ip (a : IpAddress)
  | other (family : Nat)

/-- `sa_family`. -/
inductive Family where
  | inet
  | inet6
  | other (family : Nat)
  deriving DecidableEq

def IpAddress.family : IpAddress → Family
  | .inet _ => .inet
  | .inet6 _ => .inet6

def ResolvedAddress.family : ResolvedAddress → Family
  | .ip a => a.family
  | .other family => .other family

/-! ## Masks -/

/-- `(~(uint32_t{0})) << (32 - mask_bits)`. -/
def maskIpAddr (maskBits : Nat) : BitVec 32 := (~~~0#32) <<< (32 - maskBits)

/-- `&= grpc_htonl(mask_ip_addr)` on four bytes. -/
def Bytes4.mask (e : Endian) (a : Bytes4) (maskBits : Nat) : Bytes4 :=
  .store e (a.load e &&& htonl e (maskIpAddr maskBits))

/-- The branch of `grpc_sockaddr_mask_bits` for `GRPC_AF_INET`. -/
def maskInet (e : Endian) (a : Bytes4) (maskBits : Nat) : Bytes4 :=
  if maskBits = 0 then .zero
  else if maskBits ≥ 32 then a
  else a.mask e maskBits

def maskInet6 (e : Endian) (a : In6Addr) (maskBits : Nat) : In6Addr :=
  if maskBits = 0 then ⟨.zero, .zero, .zero, .zero⟩
  else if maskBits ≥ 128 then a
  else if maskBits ≤ 32 then ⟨a.p0.mask e maskBits, .zero, .zero, .zero⟩
  else if maskBits ≤ 64 then ⟨a.p0, a.p1.mask e (maskBits - 32), .zero, .zero⟩
  else if maskBits ≤ 96 then ⟨a.p0, a.p1, a.p2.mask e (maskBits - 64), .zero⟩
  else ⟨a.p0, a.p1, a.p2, a.p3.mask e (maskBits - 96)⟩

def IpAddress.mask (e : Endian) : IpAddress → Nat → IpAddress
  | .inet a, maskBits => .inet (maskInet e a maskBits)
  | .inet6 a, maskBits => .inet6 (maskInet6 e a maskBits)

/-- `grpc_sockaddr_mask_bits`. -/
def sockaddrMaskBits (e : Endian) : ResolvedAddress → Nat → ResolvedAddress
  | .ip a, maskBits => .ip (a.mask e maskBits)
  | .other family, _ => .other family

/-- `grpc_sockaddr_match_subnet`. -/
def sockaddrMatchSubnet (e : Endian) (address subnet : ResolvedAddress) (maskBits : Nat) : Bool :=
  if address.family ≠ subnet.family then false
  else match sockaddrMaskBits e address maskBits, subnet with
    | .ip (.inet a), .ip (.inet s) => a = s
    | .ip (.inet6 a), .ip (.inet6 s) => a = s
    | _, _ => false

/-! ## The matcher -/

/-- `IpAuthorizationMatcher::Type`. -/
inductive MatcherType where
  | destIp
  | sourceIp
  | directRemoteIp
  | remoteIp

structure IpAuthorizationMatcher where
  type : MatcherType
  subnetAddress : ResolvedAddress
  prefixLen : UInt32

structure EvaluateArgs where
  localAddress : ResolvedAddress
  peerAddress : ResolvedAddress

namespace IpAuthorizationMatcher

/-- The constructor, with what `StringToSockaddr` returns for the configured address. -/
def new (e : Endian) (type : MatcherType) (address : Option IpAddress) (prefixLen : UInt32) :
    IpAuthorizationMatcher :=
  match address with
  | none => ⟨type, .other 0, prefixLen⟩
  | some a => ⟨type, sockaddrMaskBits e (.ip a) prefixLen.toNat, prefixLen⟩

/-- The address that a matcher of this type reads. -/
def addressOf (args : EvaluateArgs) : MatcherType → ResolvedAddress
  | .destIp => args.localAddress
  | .sourceIp | .directRemoteIp | .remoteIp => args.peerAddress

/-- `Matches`. -/
def isMatch (e : Endian) (m : IpAuthorizationMatcher) (args : EvaluateArgs) : Bool :=
  sockaddrMatchSubnet e (addressOf args m.type) m.subnetAddress m.prefixLen.toNat

end IpAuthorizationMatcher

/-! ## Bits -/

/-- The bits of four bytes, in the order of the network. -/
def Bytes4.bit (a : Bytes4) (i : Nat) : Bool := (a.load .big).getMsbD i

def In6Addr.bit (a : In6Addr) (i : Nat) : Bool :=
  if i < 32 then a.p0.bit i
  else if i < 64 then a.p1.bit (i - 32)
  else if i < 96 then a.p2.bit (i - 64)
  else a.p3.bit (i - 96)

def IpAddress.width : IpAddress → Nat
  | .inet _ => 32
  | .inet6 _ => 128

def IpAddress.bit : IpAddress → Nat → Bool
  | .inet a, i => a.bit i
  | .inet6 a, i => a.bit i

def IpAddress.firstBits (a : IpAddress) (n : Nat) : List Bool := (List.range n).map a.bit

namespace Bytes4

variable {e : Endian} {a b : Bytes4} {n i : Nat}

theorem store_load (a : Bytes4) : store .big (a.load .big) = a := by
  obtain ⟨b0, b1, b2, b3⟩ := a
  rw [store, load]
  congr 1 <;> refine BitVec.eq_of_getLsbD_eq fun i hi => ?_
  all_goals
    simp only [BitVec.getLsbD_append, BitVec.getLsbD_extractLsb']
    grind

theorem ext_bit (h : ∀ i < 32, a.bit i = b.bit i) : a = b := by
  have hload : a.load .big = b.load .big := BitVec.eq_of_getMsbD_eq fun i hi => h i hi
  rw [← store_load a, hload, store_load]

/-- On either kind of host the masked word is stored, in the order of the network. -/
theorem load_mask (e : Endian) (a : Bytes4) (m : BitVec 32) :
    (store e (a.load e &&& htonl e m)).load .big = a.load .big &&& m := by
  refine BitVec.eq_of_getLsbD_eq fun i hi => ?_
  cases e with
  | little =>
    simp only [load, store, htonl, BitVec.getLsbD_append, BitVec.getLsbD_extractLsb',
      BitVec.getLsbD_and]
    grind
  | big =>
    simp only [load, store, htonl, BitVec.getLsbD_append, BitVec.getLsbD_extractLsb',
      BitVec.getLsbD_and]
    grind

theorem getMsbD_maskIpAddr (hn : n ≤ 32) :
    (maskIpAddr n).getMsbD i = decide (i < n) := by
  have hlt : i + (32 - n) < 32 ↔ i < n := by omega
  rw [maskIpAddr, BitVec.getMsbD_shiftLeft, BitVec.getMsbD_not, BitVec.getMsbD_zero]
  simp [hlt]

theorem bit_mask (e : Endian) (a : Bytes4) (hn : n ≤ 32) :
    (a.mask e n).bit i = (a.bit i && decide (i < n)) := by
  rw [bit, mask, load_mask, BitVec.getMsbD_and, getMsbD_maskIpAddr hn]
  rfl

theorem bit_zero (i : Nat) : zero.bit i = false := by
  have hzero : zero.load .big = 0#32 := by decide
  rw [bit, hzero, BitVec.getMsbD_zero]

end Bytes4

variable {e : Endian} {n i : Nat}

theorem bit_maskInet (e : Endian) (a : Bytes4) (n : Nat) (hi : i < 32) :
    (maskInet e a n).bit i = (a.bit i && decide (i < n)) := by
  unfold maskInet
  split_ifs with hzero hall
  · simp [Bytes4.bit_zero, hzero]
  · simp [Nat.lt_of_lt_of_le hi hall]
  · exact a.bit_mask e (by omega)

theorem bit_maskInet6 (e : Endian) (a : In6Addr) (n : Nat) (hi : i < 128) :
    (maskInet6 e a n).bit i = (a.bit i && decide (i < n)) := by
  unfold maskInet6
  split_ifs with hzero hall h32 h64 h96 <;> unfold In6Addr.bit <;>
    grind [Bytes4.bit_zero, Bytes4.bit_mask]

theorem In6Addr.ext_bit {a c : In6Addr} (h : ∀ i < 128, a.bit i = c.bit i) : a = c := by
  have hword : ∀ j < 32, a.p0.bit j = c.p0.bit j ∧ a.p1.bit j = c.p1.bit j ∧
    a.p2.bit j = c.p2.bit j ∧
      a.p3.bit j = c.p3.bit j := by
    intro j hj
    have h0 := h j (by omega)
    have h1 := h (j + 32) (by omega)
    have h2 := h (j + 64) (by omega)
    have h3 := h (j + 96) (by omega)
    unfold In6Addr.bit at h0 h1 h2 h3
    grind
  obtain ⟨a0, a1, a2, a3⟩ := a
  obtain rfl := Bytes4.ext_bit fun j hj => (hword j hj).1
  obtain rfl := Bytes4.ext_bit fun j hj => (hword j hj).2.1
  obtain rfl := Bytes4.ext_bit fun j hj => (hword j hj).2.2.1
  obtain rfl := Bytes4.ext_bit fun j hj => (hword j hj).2.2.2
  rfl

namespace IpAddress

variable {a c : IpAddress}

theorem bit_mask (e : Endian) (a : IpAddress) (n : Nat) (hi : i < a.width) :
    (a.mask e n).bit i = (a.bit i && decide (i < n)) := by
  cases a with
  | inet a => exact bit_maskInet e a n hi
  | inet6 a => exact bit_maskInet6 e a n hi

theorem ext_bit (hfamily : a.family = c.family) (h : ∀ i < a.width, a.bit i = c.bit i) : a = c := by
  cases a with
  | inet a =>
    cases c with
    | inet c => exact congrArg inet (Bytes4.ext_bit h)
    | inet6 c => cases hfamily
  | inet6 a =>
    cases c with
    | inet c => cases hfamily
    | inet6 c => exact congrArg inet6 (In6Addr.ext_bit h)

theorem family_mask (e : Endian) (a : IpAddress) (n : Nat) : (a.mask e n).family = a.family := by
  cases a <;> rfl

theorem width_eq (hfamily : a.family = c.family) : a.width = c.width := by
  cases a <;> cases c <;> first | rfl | cases hfamily

theorem mask_eq_iff (hfamily : a.family = c.family) :
    a.mask e n = c.mask e n ↔ a.firstBits (min n a.width) = c.firstBits (min n a.width) := by
  have hwidth := width_eq hfamily
  rw [firstBits, firstBits, List.map_inj_left]
  constructor
  · intro heq i hi
    obtain ⟨hn, hi⟩ := Nat.lt_min.1 (List.mem_range.1 hi)
    have hbit := congrArg (bit · i) heq
    simpa [bit_mask e a n hi, bit_mask e c n (hwidth ▸ hi), hn] using hbit
  · intro h
    refine ext_bit (by rw [family_mask, family_mask, hfamily]) fun i hi => ?_
    rw [width_eq (family_mask e a n)] at hi
    rw [bit_mask e a n hi, bit_mask e c n (hwidth ▸ hi)]
    by_cases hn : i < n
    · rw [h i (List.mem_range.2 (Nat.lt_min.2 ⟨hn, hi⟩))]
    · simp [hn]

end IpAddress

theorem matchSubnet_ip (a c : IpAddress) :
    sockaddrMatchSubnet e (.ip a) (.ip (c.mask e n)) n = true ↔
    a.family = c.family ∧ a.mask e n = c.mask e n := by
  cases a <;> cases c <;>
    simp [sockaddrMatchSubnet, sockaddrMaskBits, ResolvedAddress.family, IpAddress.family,
      IpAddress.mask]

/-- A matcher for an IPv4 or IPv6 address and a prefix length matches the addresses of the same
family whose first bits, as many as the prefix has and the address has at most, are those of the
configured one. -/
theorem isMatch_iff (e : Endian) (type : MatcherType) (configured : IpAddress) (prefixLen : UInt32)
    (args : EvaluateArgs) :
    (IpAuthorizationMatcher.new e type (some configured) prefixLen).isMatch e args = true ↔
      ∃ a, IpAuthorizationMatcher.addressOf args type = .ip a ∧ a.family = configured.family ∧
        a.firstBits (min prefixLen.toNat a.width) =
          configured.firstBits (min prefixLen.toNat a.width) := by
  show sockaddrMatchSubnet e (IpAuthorizationMatcher.addressOf args type)
    (.ip (configured.mask e prefixLen.toNat)) prefixLen.toNat = true ↔ _
  cases IpAuthorizationMatcher.addressOf args type with
  | ip a =>
    rw [matchSubnet_ip]
    constructor
    · rintro ⟨hfamily, hmask⟩
      exact ⟨a, rfl, hfamily, (IpAddress.mask_eq_iff hfamily).1 hmask⟩
    · rintro ⟨a', ha, hfamily, hbits⟩
      cases ha
      exact ⟨hfamily, (IpAddress.mask_eq_iff hfamily).2 hbits⟩
  | other family =>
    refine iff_of_false ?_ ?_
    · cases configured <;> exact Bool.false_ne_true
    · rintro ⟨a, ha, -⟩
      cases ha

end GrpcCore.IpMatcher
