import Netfish.Kit.Decimal
import Netfish.Net.TcpServer

/-!
# InetAddress

Addresses and their texts: `InetAddress.cc` and what it calls of `SocketsOps.cc`. `inet_pton` and `inet_ntop`
are the C library's, the first as glibc scans a dotted quad: four numbers up to 255, none with a zero before
it. Texts are lists of characters; an address is kept as memory has it, the port in network order on a
little-endian machine.

`InetAddress(ip, port)` logs an error and goes on when `ip` is no address: the address is 0.0.0.0 then.
-/

set_option autoImplicit false

namespace Netfish

open Kit

universe u

/-- `in_addr`, in the order of memory. -/
structure InAddr where
  b₀ : UInt8
  b₁ : UInt8
  b₂ : UInt8
  b₃ : UInt8
deriving DecidableEq, Repr

/-- What `sockaddr_in` has besides the family `AF_INET`. -/
structure SockaddrIn where
  /-- In network order. -/
  sin_port : BitVec 16
  sin_addr : InAddr
deriving DecidableEq, Repr

/-- `INADDR_ANY`, and what `bzero` leaves. -/
def InAddr.any : InAddr := ⟨0, 0, 0, 0⟩

/-- `htons` -/
def hostToNetwork16 (host16 : BitVec 16) : BitVec 16 := host16.rotateLeft 8

/-- `ntohs`; the argument is widened on the way in. -/
def networkToHost16 (net16 : BitVec 64) : BitVec 16 := (net16.setWidth 16).rotateLeft 8

theorem swap_swap (port : BitVec 16) : (port.rotateLeft 8).rotateLeft 8 = port := by
  grind

/-- The way through `uint64_t` loses nothing. -/
theorem networkToHost16_eq (net16 : BitVec 16) : networkToHost16 (net16.setWidth 64) = net16.rotateLeft 8 := by
  simp [networkToHost16]

theorem networkToHost16_hostToNetwork16 (port : BitVec 16) :
    networkToHost16 ((hostToNetwork16 port).setWidth 64) = port := by
  rw [networkToHost16_eq, hostToNetwork16, swap_swap]

/-! ## Dotted quads -/

/-- `inet_ntop` for `AF_INET`. -/
def inet_ntop (addr : InAddr) : List Char :=
  Nat.toDigits 10 addr.b₀.toNat ++ '.' :: (Nat.toDigits 10 addr.b₁.toNat ++ '.' ::
    (Nat.toDigits 10 addr.b₂.toNat ++ '.' :: Nat.toDigits 10 addr.b₃.toNat))

/-- Where `inet_pton` stands in its text. -/
structure QuadScan where
  /-- The numbers before the last dot. -/
  octets : List Nat
  /-- The number being read. -/
  cur : Nat
  saw_digit : Bool
deriving DecidableEq, Repr

namespace QuadScan

def start : QuadScan := ⟨[], 0, false⟩

/-- One character. -/
def step (s : QuadScan) (ch : Char) : Option QuadScan :=
  if ch.isDigit then
    let new := s.cur * 10 + (ch.toNat - '0'.toNat)
    if s.saw_digit && s.cur = 0 then none
    else if new > 255 then none
    else if !s.saw_digit && s.octets.length + 1 > 4 then none
    else some { s with cur := new, saw_digit := true }
  else if ch = '.' && s.saw_digit then
    if s.octets.length + 1 = 4 then none
    else some ⟨s.octets ++ [s.cur], 0, false⟩
  else none

def finish (s : QuadScan) : Option InAddr :=
  match s with
  | ⟨[n₀, n₁, n₂], n₃, true⟩ =>
    some ⟨UInt8.ofNat n₀, UInt8.ofNat n₁, UInt8.ofNat n₂, UInt8.ofNat n₃⟩
  | _ => none

end QuadScan

/-- `inet_pton` for `AF_INET`. -/
def inet_pton (text : List Char) : Option InAddr := (text.foldlM QuadScan.step .start).bind QuadScan.finish

namespace QuadScan

/-- What has been read. -/
def text (s : QuadScan) : List Char :=
  s.octets.flatMap (fun n => Nat.toDigits 10 n ++ ['.']) ++ if s.saw_digit then Nat.toDigits 10 s.cur else []

structure Sound (s : QuadScan) : Prop where
  octets : ∀ n ∈ s.octets, n < 256
  cur : s.cur < 256
  length : s.octets.length ≤ 3
  fresh : s.saw_digit = false → s.cur = 0

variable {s s' : QuadScan}

/-- One character more is read. -/
theorem Sound.step (h : s.Sound) {ch : Char} (hs : s.step ch = some s') :
    s'.Sound ∧ s'.text = s.text ++ [ch] := by
  unfold QuadScan.step at hs
  split at hs
  · next hdigit =>
    obtain ⟨d, hd, rfl⟩ := exists_digit hdigit
    have hvalue : d.digitChar.toNat - '0'.toNat = d := Nat.toNat_digitChar_sub_48_of_lt_ten hd
    simp only [hvalue] at hs
    split at hs
    · cases hs
    · next hlead =>
      split at hs
      · cases hs
      · next hbig =>
        split at hs
        · cases hs
        · cases hs
          refine ⟨⟨h.octets, by dsimp only; omega, h.length, by simp⟩, ?_⟩
          cases hsaw : s.saw_digit with
          | true =>
            have hcur : s.cur ≠ 0 := by simpa [hsaw] using hlead
            simp only [text, hsaw, if_true, ← toDigits_snoc hcur hd, List.append_assoc]
          | false =>
            simp [text, hsaw, h.fresh hsaw, Nat.toDigits_of_lt_base hd]
  · next hdigit =>
    split at hs
    · next hdot =>
      obtain ⟨rfl, hsaw⟩ : ch = '.' ∧ s.saw_digit = true := by simpa using hdot
      split at hs
      · cases hs
      · next hlength =>
        cases hs
        have hlength' := h.length
        refine ⟨⟨?_, Nat.zero_lt_succ _, ?_, fun _ => rfl⟩, ?_⟩
        · intro n hn
          rcases List.mem_append.mp hn with hn | hn
          · exact h.octets n hn
          · rw [List.mem_singleton.mp hn]
            exact h.cur
        · simp only [List.length_append, List.length_singleton]
          omega
        · simp [text, hsaw]
    · cases hs

theorem Sound.scan (h : s.Sound) {t : List Char} (hs : t.foldlM QuadScan.step s = some s') :
    s'.Sound ∧ s'.text = s.text ++ t := by
  induction t generalizing s with
  | nil =>
    cases hs
    exact ⟨h, (List.append_nil _).symm⟩
  | cons ch t ih =>
    rw [List.foldlM_cons] at hs
    obtain ⟨u, hu, hs⟩ := Option.bind_eq_some_iff.mp hs
    obtain ⟨hsound, htext⟩ := h.step hu
    obtain ⟨hsound', htext'⟩ := ih hsound hs
    exact ⟨hsound', by rw [htext', htext, List.append_assoc, List.singleton_append]⟩

theorem step_digit (octets : List Nat) (cur : Nat) (saw_digit : Bool) {d : Nat} (hd : d < 10)
    (hlead : saw_digit = true → cur ≠ 0) (hnew : cur * 10 + d < 256) (hlength : octets.length ≤ 3) :
    (⟨octets, cur, saw_digit⟩ : QuadScan).step d.digitChar = some ⟨octets, cur * 10 + d, true⟩ := by
  have hvalue : d.digitChar.toNat - '0'.toNat = d := Nat.toNat_digitChar_sub_48_of_lt_ten hd
  unfold QuadScan.step
  rw [if_pos (by simp [Nat.isDigit_digitChar, hd])]
  simp only [hvalue]
  rw [if_neg (by simpa using hlead), if_neg (by omega), if_neg]
  simp only [Bool.and_eq_true, decide_eq_true_eq]
  omega

/-- A number is read digit by digit. -/
theorem scan_toDigits {octets : List Nat} (hlength : octets.length ≤ 3) {n : Nat} (hn : n < 256) :
    (Nat.toDigits 10 n).foldlM QuadScan.step ⟨octets, 0, false⟩ = some ⟨octets, n, true⟩ := by
  induction n using Nat.strong_induction_on with
  | _ n ih =>
    by_cases h10 : n < 10
    · have hstep := step_digit octets 0 false h10 (by simp) (by omega) hlength
      rw [Nat.zero_mul, Nat.zero_add] at hstep
      rw [Nat.toDigits_of_lt_base h10, List.foldlM_cons, hstep]
      rfl
    · have hstep := step_digit octets (n / 10) true (Nat.mod_lt n (by decide)) (fun _ => by omega)
        (by omega) hlength
      rw [Nat.div_add_mod'] at hstep
      rw [Nat.toDigits_of_base_le (by decide) (by omega), List.foldlM_append, ih (n / 10) (by omega) (by omega)]
      show [(n % 10).digitChar].foldlM QuadScan.step _ = _
      rw [List.foldlM_cons, hstep]
      rfl

/-- A number and its dot. -/
theorem scan_octet {octets : List Nat} (hlength : octets.length < 3) {n : Nat} (hn : n < 256) (t : List Char) :
    (Nat.toDigits 10 n ++ '.' :: t).foldlM QuadScan.step ⟨octets, 0, false⟩ =
      t.foldlM QuadScan.step ⟨octets ++ [n], 0, false⟩ := by
  have hdot : (⟨octets, n, true⟩ : QuadScan).step '.' = some ⟨octets ++ [n], 0, false⟩ := by
    have hne : octets.length + 1 ≠ 4 := by omega
    simp [QuadScan.step, hne]
  rw [List.foldlM_append, scan_toDigits (Nat.le_of_lt hlength) hn]
  show ('.' :: t).foldlM QuadScan.step _ = _
  rw [List.foldlM_cons, hdot]
  rfl

end QuadScan

theorem inet_pton_inet_ntop (addr : InAddr) : inet_pton (inet_ntop addr) = some addr := by
  have hbound : ∀ b : UInt8, b.toNat < 256 := UInt8.toNat_lt
  unfold inet_pton inet_ntop QuadScan.start
  rw [QuadScan.scan_octet (by decide) (hbound _), QuadScan.scan_octet (by simp) (hbound _),
    QuadScan.scan_octet (by simp) (hbound _), QuadScan.scan_toDigits (by simp) (hbound _)]
  simp [QuadScan.finish]

/-- `inet_pton` takes the texts of addresses, and no others. -/
theorem inet_pton_eq_some {text : List Char} {addr : InAddr} :
    inet_pton text = some addr ↔ text = inet_ntop addr := by
  refine ⟨fun h => ?_, fun h => h ▸ inet_pton_inet_ntop addr⟩
  obtain ⟨s, hs, hfinish⟩ := Option.bind_eq_some_iff.mp h
  have hstart : QuadScan.start.Sound := ⟨by simp [QuadScan.start], by decide, by decide, fun _ => rfl⟩
  obtain ⟨hsound, htext⟩ := hstart.scan hs
  unfold QuadScan.finish at hfinish
  split at hfinish
  · next n₀ n₁ n₂ n₃ =>
    cases hfinish
    have h₀ := hsound.octets n₀ (by simp)
    have h₁ := hsound.octets n₁ (by simp)
    have h₂ := hsound.octets n₂ (by simp)
    have h₃ := hsound.cur
    rw [show QuadScan.start.text = [] from rfl, List.nil_append] at htext
    rw [← htext]
    simp [QuadScan.text, inet_ntop, UInt8.toNat_ofNat', Nat.mod_eq_of_lt h₀, Nat.mod_eq_of_lt h₁,
      Nat.mod_eq_of_lt h₂, Nat.mod_eq_of_lt h₃]
  · cases hfinish

/-! ## Host and port -/

/-- The `char*` of a `std::string` ends at the first NUL. -/
def c_str (text : List Char) : List Char := text.takeWhile (· ≠ Char.ofNat 0)

namespace sockets

/-- `host` is never left at `"INVALID"`: `inet_ntop` has room for every address. -/
def toHostPort (size : Nat) (addr : SockaddrIn) : List Char :=
  let host := inet_ntop addr.sin_addr
  let port := networkToHost16 (addr.sin_port.setWidth 64)
  snprintf size (host ++ ':' :: Nat.toDigits 10 port.toNat)

def fromHostPort (ip : List Char) (port : BitVec 16) (addr : SockaddrIn) : SockaddrIn :=
  let addr := { addr with sin_port := hostToNetwork16 port }
  match inet_pton ip with
  | some sin_addr => { addr with sin_addr }
  | none => addr

/-- With what `getsockname` and `getpeername` give. -/
def isSelfConnect (localaddr peeraddr : SockaddrIn) : Bool :=
  localaddr.sin_port = peeraddr.sin_port && localaddr.sin_addr = peeraddr.sin_addr

end sockets

structure InetAddress where
  addr_ : SockaddrIn
deriving DecidableEq, Repr

namespace InetAddress

/-- `InetAddress(port)` -/
def ofPort (port : BitVec 16) : InetAddress := ⟨hostToNetwork16 port, .any⟩

/-- `InetAddress(ip, port)` -/
def new (ip : List Char) (port : BitVec 16) : InetAddress :=
  ⟨sockets.fromHostPort (c_str ip) port ⟨0, .any⟩⟩

def toHostPort (a : InetAddress) : List Char := sockets.toHostPort 32 a.addr_

/-- The port, in host order. -/
def port (a : InetAddress) : BitVec 16 := networkToHost16 (a.addr_.sin_port.setWidth 64)

theorem inet_ntop_length (addr : InAddr) : (inet_ntop addr).length ≤ 15 := by
  have hbyte : ∀ b : UInt8, (Nat.toDigits 10 b.toNat).length ≤ 3 :=
    fun b => (Nat.length_toDigits_le_iff (by decide) (by decide)).mpr (b.toNat_lt.trans (by decide))
  have h₀ := hbyte addr.b₀
  have h₁ := hbyte addr.b₁
  have h₂ := hbyte addr.b₂
  have h₃ := hbyte addr.b₃
  simp only [inet_ntop, List.length_append, List.length_cons]
  omega

/-- The 32 characters of the buffer are enough. -/
theorem toHostPort_eq (a : InetAddress) :
    a.toHostPort = inet_ntop a.addr_.sin_addr ++ ':' :: Nat.toDigits 10 a.port.toNat := by
  have hport : (Nat.toDigits 10 a.port.toNat).length ≤ 5 :=
    (Nat.length_toDigits_le_iff (by decide) (by decide)).mpr (a.port.isLt.trans (by decide))
  have hhost := inet_ntop_length a.addr_.sin_addr
  apply List.take_of_length_le
  show (inet_ntop a.addr_.sin_addr ++ ':' :: Nat.toDigits 10 a.port.toNat).length ≤ 31
  simp only [List.length_append, List.length_cons]
  omega

theorem new_port (ip : List Char) (port : BitVec 16) : (new ip port).port = port := by
  unfold new sockets.fromHostPort InetAddress.port
  split <;> exact networkToHost16_hostToNetwork16 port

theorem new_addr (ip : List Char) (port : BitVec 16) :
    (new ip port).addr_.sin_addr = (inet_pton (c_str ip)).getD .any := by
  unfold new sockets.fromHostPort
  split
  · next addr h => rw [h]; rfl
  · next h => rw [h]; rfl

/-- The characters of a dotted quad. -/
theorem inet_ntop_char {addr : InAddr} {ch : Char} (h : ch ∈ inet_ntop addr) : ch.isDigit = true ∨ ch = '.' := by
  simp only [inet_ntop, List.mem_append, List.mem_cons] at h
  rcases h with h | rfl | h | rfl | h | rfl | h
  · exact .inl (isDigit_of_mem h)
  · exact .inr rfl
  · exact .inl (isDigit_of_mem h)
  · exact .inr rfl
  · exact .inl (isDigit_of_mem h)
  · exact .inr rfl
  · exact .inl (isDigit_of_mem h)

theorem inet_ntop_inj {addr addr' : InAddr} (h : inet_ntop addr = inet_ntop addr') : addr = addr' := by
  have hread := congrArg inet_pton h
  simpa only [inet_pton_inet_ntop, Option.some.injEq] using hread

/-- What `toHostPort` writes tells addresses apart. -/
theorem toHostPort_inj {a b : InetAddress} (h : a.toHostPort = b.toHostPort) : a = b := by
  have hcolon : ∀ addr : InAddr, ∀ ch ∈ inet_ntop addr, decide (ch ≠ ':') = true := by
    intro addr ch hch
    rcases inet_ntop_char hch with hdigit | rfl
    · refine decide_eq_true ?_
      rintro rfl
      cases hdigit
    · rfl
  rw [toHostPort_eq, toHostPort_eq] at h
  have hhost := congrArg (List.takeWhile fun ch => decide (ch ≠ ':')) h
  rw [takeWhile_stop (hcolon _) (by decide), takeWhile_stop (hcolon _) (by decide)] at hhost
  have haddr := inet_ntop_inj hhost
  rw [haddr] at h
  have hport : a.port = b.port :=
    BitVec.toNat_inj.mp (toDigits_inj (List.cons_inj_right _ |>.mp (List.append_cancel_left h)))
  have hsin : a.addr_.sin_port = b.addr_.sin_port := by
    rw [InetAddress.port, InetAddress.port, networkToHost16_eq, networkToHost16_eq] at hport
    rw [← swap_swap a.addr_.sin_port, hport, swap_swap]
  obtain ⟨⟨port, addr⟩⟩ := a
  obtain ⟨⟨port', addr'⟩⟩ := b
  obtain rfl : port = port' := hsin
  obtain rfl : addr = addr' := haddr
  rfl

/-- A connection to itself has the same text at both ends. -/
theorem isSelfConnect_iff (localaddr peeraddr : SockaddrIn) :
    sockets.isSelfConnect localaddr peeraddr = true ↔
      (⟨localaddr⟩ : InetAddress).toHostPort = (⟨peeraddr⟩ : InetAddress).toHostPort := by
  constructor
  · intro h
    obtain ⟨hport, haddr⟩ : localaddr.sin_port = peeraddr.sin_port ∧ localaddr.sin_addr = peeraddr.sin_addr := by
      simpa [sockets.isSelfConnect] using h
    obtain ⟨port, addr⟩ := localaddr
    obtain rfl : port = peeraddr.sin_port := hport
    obtain rfl : addr = peeraddr.sin_addr := haddr
    rfl
  · intro h
    cases toHostPort_inj h
    simp [sockets.isSelfConnect]

end InetAddress

/-- **The text of an address.** `InetAddress(ip, port).toHostPort()` is `ip:port` again when `ip` is a dotted quad
of four numbers up to 255 without leading zeros, as `inet_ntop` writes them, up to its first NUL; for any other
`ip` it is `0.0.0.0:port`. The text is never cut off by the buffer. -/
theorem inetAddress_text (ip : List Char) (port : BitVec 16) :
    (InetAddress.new ip port).toHostPort = (match inet_pton (c_str ip) with
      | some _ => c_str ip
      | none => ['0', '.', '0', '.', '0', '.', '0']) ++ ':' :: Nat.toDigits 10 port.toNat ∧
    ∀ addr, inet_pton (c_str ip) = some addr ↔ c_str ip = inet_ntop addr := by
  refine ⟨?_, fun addr => inet_pton_eq_some⟩
  rw [InetAddress.toHostPort_eq, InetAddress.new_port, InetAddress.new_addr]
  cases h : inet_pton (c_str ip) with
  | some addr => rw [inet_pton_eq_some.mp h]; rfl
  | none => rfl

/-- **The names of connections.** A connection of a server has the name of no other one, of this server or of one
with another listen address: the name tells the address and the number apart. -/
theorem connection_names {a b : InetAddress} {c d : Nat} :
    connName (String.ofList a.toHostPort) c = connName (String.ofList b.toHostPort) d ↔ a = b ∧ c = d := by
  refine ⟨fun h => ?_, fun ⟨ha, hc⟩ => by rw [ha, hc]⟩
  have hhash : ∀ a : InetAddress, ∀ ch ∈ a.toHostPort, decide (ch ≠ '#') = true := by
    intro a ch hch
    rw [InetAddress.toHostPort_eq, List.mem_append, List.mem_cons] at hch
    refine decide_eq_true ?_
    rintro rfl
    rcases hch with hch | hch | hch
    · rcases InetAddress.inet_ntop_char hch with hdigit | hdot
      · cases hdigit
      · cases hdot
    · cases hch
    · cases isDigit_of_mem hch
  have htext : ∀ (a : InetAddress) (c : Nat), (connName (String.ofList a.toHostPort) c).toList =
      a.toHostPort ++ '#' :: Nat.toDigits 10 c := by
    intro a c
    simp [connName]
  have hlist := congrArg String.toList h
  rw [htext, htext] at hlist
  have haddr := congrArg (List.takeWhile fun ch => decide (ch ≠ '#')) hlist
  rw [takeWhile_stop (hhash a) (by decide), takeWhile_stop (hhash b) (by decide)] at haddr
  rw [haddr] at hlist
  exact ⟨InetAddress.toHostPort_inj haddr,
    toDigits_inj ((List.cons_inj_right _).mp (List.append_cancel_left hlist))⟩

end Netfish
