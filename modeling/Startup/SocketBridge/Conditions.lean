import Startup.Lib.Numeral
import Startup.Lib.Variable
import Mathlib.Data.List.Permutation

/-!
# Sockets that jobs ask for (`extra/socket.c`)

The bridge listens on a socket for each `socket` event in the conditions of a job.  The
arguments of the event describe the address.

* `socketEnv`: what one argument does to the address, and to the count of the components that
  are still missing.
* `jobAddSocket`: the address that the bridge listens on in the end.
* `Describes`: the arguments of the manual page, and the address that they describe.
* `Passes`: the lists of arguments that the loop lets pass.
* `jobAddSocket_iff`: when the bridge listens on what is described, and on nothing else.
-/

namespace Startup.SocketBridge

open Lib Numeral

/-! ## Addresses -/

/-- `sa_family`; `unspec` is what the zeroed address has. -/
inductive Family where
  | unspec
  | inet
  | inet6
  | unix
  deriving DecidableEq, Repr

/-- The union of the addresses of a `Socket`: the family, the 108 bytes behind it, and
`addrlen`. -/
structure SocketAddress where
  family : Family
  bytes : List UInt8
  addrlen : Nat
  deriving DecidableEq, Repr

/-- `inet_aton`, and `inet_pton` for `AF_INET6`. -/
structure Resolver where
  inetAton : Text → Option (Vector UInt8 4)
  inetPton6 : Text → Option (Vector UInt8 16)

def zeros (n : Nat) : List UInt8 := List.replicate n 0

/-- Write some bytes at an offset. -/
def overwrite (bytes : List UInt8) (offset : Nat) (new : List UInt8) : List UInt8 :=
  bytes.take offset ++ new ++ bytes.drop (offset + new.length)

/-- `htons`, as it lies in memory, of an `int`. -/
def portBytes (port : Int) : List UInt8 :=
  let n := (port % 2 ^ 16).toNat
  [UInt8.ofNat (n / 256), UInt8.ofNat (n % 256)]

/-- `atoi`. -/
def atoi (val : Text) : Int := toInt (strtol 10 val).value

/-- `strncpy` to `sun_path`, whose first byte becomes 0 when it is an `@`. -/
def sunPath (val : Text) : List UInt8 :=
  let path := (utf8 val).take 108 ++ zeros (108 - (utf8 val).length)
  if path.head? = some 64 then path.set 0 0 else path

/-! ## The loop -/

/-- The address so far, and `components`. -/
structure SocketState where
  addr : SocketAddress
  components : Int
  deriving DecidableEq, Repr

/-- The zeroed `Socket`. -/
def SocketState.start : SocketState := ⟨⟨.unspec, zeros 108, 0⟩, 0⟩

/-- The names of the families. -/
def Family.name : Family → Text
  | .unspec => []
  | .inet => "inet".toList
  | .inet6 => "inet6".toList
  | .unix => "unix".toList

/-- The address for a family that a `PROTO` starts: `INADDR_ANY` or `in6addr_any` is written
over what is there. -/
def SocketAddress.proto (a : SocketAddress) : Family → SocketAddress
  | .unspec => a
  | .inet => ⟨.inet, overwrite a.bytes 2 (zeros 4), 16⟩
  | .inet6 => ⟨.inet6, overwrite a.bytes 6 (zeros 16), 28⟩
  | .unix => ⟨.unix, a.bytes, 110⟩

/-- Write to the bytes of an address. -/
def SocketState.write (s : SocketState) (offset : Nat) (new : List UInt8) : SocketState :=
  { s with addr := { s.addr with bytes := overwrite s.addr.bytes offset new } }

/-- The body of the loop in `job_add_socket`. -/
def socketEnv (lib : Resolver) (s : SocketState) (env : Text) : Option SocketState :=
  match splitVariable env with
  | none => none
  | some (name, val) =>
    if beginsName name "PROTO".toList then
      if val = Family.inet.name then some ⟨s.addr.proto .inet, 1⟩
      else if val = Family.inet6.name then some ⟨s.addr.proto .inet6, 1⟩
      else if val = Family.unix.name then some ⟨s.addr.proto .unix, 1⟩
      else none
    else if beginsName name "PORT".toList ∧ s.addr.family = .inet then
      some { s.write 0 (portBytes (atoi val)) with components := s.components - 1 }
    else if beginsName name "PORT".toList ∧ s.addr.family = .inet6 then
      some { s.write 0 (portBytes (atoi val)) with components := s.components - 1 }
    else if beginsName name "ADDR".toList ∧ s.addr.family = .inet then
      (lib.inetAton val).map fun ip => s.write 2 ip.toList
    else if beginsName name "ADDR".toList ∧ s.addr.family = .inet6 then
      (lib.inetPton6 val).map fun ip => s.write 6 ip.toList
    else if beginsName name "SOCKET_PATH".toList ∧ s.addr.family = .unix then
      some { s.write 0 (sunPath val) with components := s.components - 1 }
    else none

/-- Which system calls succeed. -/
structure Kernel where
  socket : Family → Bool
  reuseAddr : Bool
  v6only : Bool
  bind : SocketAddress → Bool
  listen : Bool
  epollAdd : Bool

/-- `job_add_socket` with what follows the name of the event: the address of the socket that is
added to the job. -/
def jobAddSocket (lib : Resolver) (k : Kernel) (args : List Text) : Option SocketAddress :=
  match args.foldlM (socketEnv lib) .start with
  | none => none
  | some s =>
    if s.components ≠ 0 then none
    else if !k.socket s.addr.family then none
    else if !k.reuseAddr then none
    else if s.addr.family = .inet6 ∧ !k.v6only then none
    else if !k.bind s.addr then none
    else if !k.listen then none
    else if !k.epollAdd then none
    else some s.addr

/-- There are sockets of the three families, and none without a family. -/
structure Kernel.Serves (k : Kernel) : Prop where
  unspec : k.socket .unspec = false
  socket {f : Family} (hf : f ≠ .unspec) : k.socket f = true
  reuseAddr : k.reuseAddr = true
  v6only : k.v6only = true
  bind (a : SocketAddress) : k.bind a = true
  listen : k.listen = true
  epollAdd : k.epollAdd = true

/-! ## What arguments describe -/

/-- An address to listen on. -/
inductive Address where
  | inet (port : Nat) (port_lt : port < 65536) (ip : Vector UInt8 4)
  | inet6 (port : Nat) (port_lt : port < 65536) (ip : Vector UInt8 16)
  | unix (path : Text) (fits : (utf8 path).length ≤ 108)

/-- The bytes of a path, of which an `@` at the beginning stands for a 0. -/
def pathBytes (path : Text) : List UInt8 :=
  match utf8 path with
  | 64 :: rest => 0 :: rest
  | bytes => bytes

/-- The address as `bind` takes it. -/
def Address.sockaddr : Address → SocketAddress
  | .inet port _ ip => ⟨.inet, portBytes port ++ ip.toList ++ zeros 102, 16⟩
  | .inet6 port _ ip => ⟨.inet6, portBytes port ++ zeros 4 ++ ip.toList ++ zeros 86, 28⟩
  | .unix path _ => ⟨.unix, pathBytes path ++ zeros (108 - (utf8 path).length), 110⟩

/-- At most one address, which is any if there is none. -/
inductive AddrArgs {n : Nat} (resolve : Text → Option (Vector UInt8 n)) :
    List Text → Vector UInt8 n → Prop where
  | none : AddrArgs resolve [] (Vector.replicate n 0)
  | some {val : Text} {ip : Vector UInt8 n} (h : resolve val = some ip) :
      AddrArgs resolve ["ADDR=".toList ++ val] ip

/-- Arguments, in any order, and the address that they describe. -/
inductive Describes (lib : Resolver) : List Text → Address → Prop where
  | inet {args addr : List Text} {port : Text} {ip : Vector UInt8 4}
      (hdigits : Digits 10 port) (hport : magnitude 10 port < 65536)
      (haddr : AddrArgs lib.inetAton addr ip)
      (h : args.Perm ("PROTO=inet".toList :: ("PORT=".toList ++ port) :: addr)) :
      Describes lib args (.inet (magnitude 10 port) hport ip)
  | inet6 {args addr : List Text} {port : Text} {ip : Vector UInt8 16}
      (hdigits : Digits 10 port) (hport : magnitude 10 port < 65536)
      (haddr : AddrArgs lib.inetPton6 addr ip)
      (h : args.Perm ("PROTO=inet6".toList :: ("PORT=".toList ++ port) :: addr)) :
      Describes lib args (.inet6 (magnitude 10 port) hport ip)
  | unix {args : List Text} {path : Text} (fits : (utf8 path).length ≤ 108)
      (h : args.Perm ["PROTO=unix".toList, "SOCKET_PATH=".toList ++ path]) :
      Describes lib args (.unix path fits)

/-! ## What the loop lets pass -/

/-- An argument is taken for `PROTO`: its name is a beginning of that. -/
inductive TakenProto : Family → Text → Prop where
  | intro {f : Family} {n : Text} (hf : f ≠ .unspec) (hn : n <+: "PROTO".toList) :
      TakenProto f (n ++ '=' :: f.name)

/-- An argument is taken for a variable of a family; the flag tells those that are required. -/
inductive TakenVar (lib : Resolver) : Family → Bool → Text → Prop where
  | port {f : Family} {n v : Text} (hf : f = .inet ∨ f = .inet6) (hn : n <+: "PORT".toList)
      (hproto : ¬n <+: "PROTO".toList) : TakenVar lib f true (n ++ '=' :: v)
  | addr {n v : Text} {ip : Vector UInt8 4} (hn : n <+: "ADDR".toList) (hne : n ≠ [])
      (h : lib.inetAton v = some ip) : TakenVar lib .inet false (n ++ '=' :: v)
  | addr6 {n v : Text} {ip : Vector UInt8 16} (hn : n <+: "ADDR".toList) (hne : n ≠ [])
      (h : lib.inetPton6 v = some ip) : TakenVar lib .inet6 false (n ++ '=' :: v)
  | path {n v : Text} (hn : n <+: "SOCKET_PATH".toList) (hne : n ≠ []) :
      TakenVar lib .unix true (n ++ '=' :: v)

/-- Arguments that are taken for variables of a family, so many of them for required ones. -/
inductive TakenVars (lib : Resolver) (f : Family) : Nat → List Text → Prop where
  | nil : TakenVars lib f 0 []
  | cons {required : Bool} {env : Text} {k : Nat} {args : List Text}
      (h : TakenVar lib f required env) (hs : TakenVars lib f k args) :
      TakenVars lib f (required.toNat + k) (env :: args)

/-- What is taken for a `PROTO` comes first, each argument is taken for a variable of the last
family before it, and one behind the last `PROTO` is taken for a required one. -/
inductive Passes (lib : Resolver) : List Text → Prop where
  | last {f : Family} {env : Text} {vars : List Text} (hproto : TakenProto f env)
      (hvars : TakenVars lib f 1 vars) : Passes lib (env :: vars)
  | more {f : Family} {env : Text} {k : Nat} {vars args : List Text} (hproto : TakenProto f env)
      (hvars : TakenVars lib f k vars) (hs : Passes lib args) : Passes lib (env :: (vars ++ args))

/-- The first argument is a `PROTO`. -/
def ProtoFirst (args : List Text) : Prop :=
  ∃ v rest, args = ("PROTO=".toList ++ v) :: rest

/-! ## One argument -/

variable {lib : Resolver} {s s' : SocketState} {env : Text} {f : Family} {args : List Text}
  {k : Nat} {required : Bool} {n v : Text}

theorem not_mem_of_isPrefix {c : Char} {name : Text} (hn : n <+: name) (hname : c ∉ name) :
    c ∉ n :=
  fun hmem => hname (hn.subset hmem)

/-- The names other than `PROTO` and `PORT` begin with a letter of their own. -/
theorem not_begins {name other : Text} (hn : n <+: name) (hne : n ≠ [])
    (hhead : name.head? ≠ other.head?) : ¬n <+: other := by
  intro hother
  cases n with
  | nil => exact hne rfl
  | cons c t =>
    obtain ⟨u, rfl⟩ := hn
    obtain ⟨u', rfl⟩ := hother
    exact hhead rfl

theorem socketEnv_proto (s : SocketState) (hf : f ≠ .unspec) (hn : n <+: "PROTO".toList) :
    socketEnv lib s (n ++ '=' :: f.name) = some ⟨s.addr.proto f, 1⟩ := by
  have hsplit : splitVariable (n ++ '=' :: f.name) = some (n, f.name) :=
    splitVariable_append (not_mem_of_isPrefix hn (by decide))
  unfold socketEnv
  simp only [hsplit, beginsName, List.isPrefixOf_iff_prefix, hn, if_true]
  cases f with
  | unspec => exact absurd rfl hf
  | inet => rfl
  | inet6 => rfl
  | unix => rfl

theorem socketEnv_port (hf : s.addr.family = .inet ∨ s.addr.family = .inet6)
    (hn : n <+: "PORT".toList) (hproto : ¬n <+: "PROTO".toList) :
    socketEnv lib s (n ++ '=' :: v) =
      some { s.write 0 (portBytes (atoi v)) with components := s.components - 1 } := by
  have hsplit : splitVariable (n ++ '=' :: v) = some (n, v) :=
    splitVariable_append (not_mem_of_isPrefix hn (by decide))
  unfold socketEnv
  simp only [hsplit, beginsName, List.isPrefixOf_iff_prefix, hn, hproto, if_false, true_and]
  rcases hf with hf | hf
  · rw [if_pos hf]
  · rw [if_neg (by simp [hf]), if_pos hf]

theorem socketEnv_addr {ip : Vector UInt8 4} (hf : s.addr.family = .inet)
    (hn : n <+: "ADDR".toList) (hne : n ≠ []) (hip : lib.inetAton v = some ip) :
    socketEnv lib s (n ++ '=' :: v) = some (s.write 2 ip.toList) := by
  have hsplit : splitVariable (n ++ '=' :: v) = some (n, v) :=
    splitVariable_append (not_mem_of_isPrefix hn (by decide))
  have hproto : ¬n <+: "PROTO".toList := not_begins hn hne (by decide)
  have hport : ¬n <+: "PORT".toList := not_begins hn hne (by decide)
  unfold socketEnv
  simp only [hsplit, beginsName, List.isPrefixOf_iff_prefix, hproto, hport, hn, hf, if_false,
    false_and, true_and, and_false, if_true, reduceCtorEq, hip, Option.map_some]

theorem socketEnv_addr6 {ip : Vector UInt8 16} (hf : s.addr.family = .inet6)
    (hn : n <+: "ADDR".toList) (hne : n ≠ []) (hip : lib.inetPton6 v = some ip) :
    socketEnv lib s (n ++ '=' :: v) = some (s.write 6 ip.toList) := by
  have hsplit : splitVariable (n ++ '=' :: v) = some (n, v) :=
    splitVariable_append (not_mem_of_isPrefix hn (by decide))
  have hproto : ¬n <+: "PROTO".toList := not_begins hn hne (by decide)
  have hport : ¬n <+: "PORT".toList := not_begins hn hne (by decide)
  unfold socketEnv
  simp only [hsplit, beginsName, List.isPrefixOf_iff_prefix, hproto, hport, hn, hf, if_false,
    false_and, true_and, and_false, if_true, reduceCtorEq, hip, Option.map_some]

theorem socketEnv_path (hf : s.addr.family = .unix) (hn : n <+: "SOCKET_PATH".toList)
    (hne : n ≠ []) :
    socketEnv lib s (n ++ '=' :: v) =
      some { s.write 0 (sunPath v) with components := s.components - 1 } := by
  have hsplit : splitVariable (n ++ '=' :: v) = some (n, v) :=
    splitVariable_append (not_mem_of_isPrefix hn (by decide))
  have hproto : ¬n <+: "PROTO".toList := not_begins hn hne (by decide)
  have hport : ¬n <+: "PORT".toList := not_begins hn hne (by decide)
  unfold socketEnv
  simp only [hsplit, beginsName, List.isPrefixOf_iff_prefix, hproto, hport, hn, hf, if_false,
    true_and, and_false, if_true, reduceCtorEq]

/-- The family and the count of an address, on which the later arguments depend. -/
structure Stands (s : SocketState) (f : Family) (components : Int) : Prop where
  family_eq : s.addr.family = f
  components_eq : s.components = components

theorem stands_proto (a : SocketAddress) (f : Family) (hf : f ≠ .unspec) :
    Stands ⟨a.proto f, 1⟩ f 1 := by
  cases f with
  | unspec => exact absurd rfl hf
  | inet => exact ⟨rfl, rfl⟩
  | inet6 => exact ⟨rfl, rfl⟩
  | unix => exact ⟨rfl, rfl⟩

theorem TakenVar.socketEnv (h : TakenVar lib s.addr.family required env) :
    ∃ s', socketEnv lib s env = some s' ∧
      Stands s' s.addr.family (s.components - required.toNat) := by
  generalize hf : s.addr.family = f at h
  cases h with
  | port hf' hn hproto =>
    exact ⟨_, socketEnv_port (hf ▸ hf') hn hproto, hf, rfl⟩
  | addr hn hne hip => exact ⟨_, socketEnv_addr hf hn hne hip, hf, by simp [SocketState.write]⟩
  | addr6 hn hne hip => exact ⟨_, socketEnv_addr6 hf hn hne hip, hf, by simp [SocketState.write]⟩
  | path hn hne => exact ⟨_, socketEnv_path hf hn hne, hf, rfl⟩

/-- An argument that does not end the loop is taken for a `PROTO` or for a variable. -/
theorem socketEnv_some (h : socketEnv lib s env = some s') :
    (∃ f, TakenProto f env ∧ Stands s' f 1) ∨
      ∃ required, TakenVar lib s.addr.family required env ∧
        Stands s' s.addr.family (s.components - required.toNat) := by
  unfold socketEnv at h
  split at h
  · contradiction
  · rename_i n v hsplit
    obtain ⟨rfl, -⟩ := splitVariable_eq_some_iff.mp hsplit
    simp only [beginsName, List.isPrefixOf_iff_prefix] at h
    split_ifs at h with hproto hinet hinet6 hunix hport hport6 haddr haddr6 hpath
    · obtain rfl := Option.some.inj h
      rw [hinet]
      exact .inl ⟨_, .intro (by decide) hproto, rfl, rfl⟩
    · obtain rfl := Option.some.inj h
      rw [hinet6]
      exact .inl ⟨_, .intro (by decide) hproto, rfl, rfl⟩
    · obtain rfl := Option.some.inj h
      rw [hunix]
      exact .inl ⟨_, .intro (by decide) hproto, rfl, rfl⟩
    · obtain rfl := Option.some.inj h
      exact .inr ⟨true, .port (.inl hport.2) hport.1 hproto, rfl, rfl⟩
    · obtain rfl := Option.some.inj h
      exact .inr ⟨true, .port (.inr hport6.2) hport6.1 hproto, rfl, rfl⟩
    · obtain ⟨ip, hip, rfl⟩ := Option.map_eq_some_iff.mp h
      have hne : n ≠ [] := fun hnil => hproto (hnil ▸ List.nil_prefix)
      rw [haddr.2]
      exact .inr ⟨false, .addr haddr.1 hne hip, haddr.2, by simp [SocketState.write]⟩
    · obtain ⟨ip, hip, rfl⟩ := Option.map_eq_some_iff.mp h
      have hne : n ≠ [] := fun hnil => hproto (hnil ▸ List.nil_prefix)
      rw [haddr6.2]
      exact .inr ⟨false, .addr6 haddr6.1 hne hip, haddr6.2, by simp [SocketState.write]⟩
    · obtain rfl := Option.some.inj h
      have hne : n ≠ [] := fun hnil => hproto (hnil ▸ List.nil_prefix)
      rw [hpath.2]
      exact .inr ⟨true, .path hpath.1 hne, hpath.2, rfl⟩

/-! ## All arguments -/

theorem TakenProto.family_ne (h : TakenProto f env) : f ≠ .unspec := by
  cases h with
  | intro hf => exact hf

theorem TakenVar.family_ne (h : TakenVar lib f required env) : f ≠ .unspec := by
  cases h with
  | port hf =>
    rcases hf with rfl | rfl
    · decide
    · decide
  | addr => decide
  | addr6 => decide
  | path => decide

/-- The arguments pass from a state on: those that are left are variables of its family, of
which just the missing ones are required, or a new `PROTO` begins a list that passes. -/
def PassesFrom (lib : Resolver) (s : SocketState) (args : List Text) : Prop :=
  (s.addr.family ≠ .unspec ∧ ∃ k : Nat, s.components = k ∧ TakenVars lib s.addr.family k args) ∨
    ∃ k vars rest, args = vars ++ rest ∧ TakenVars lib s.addr.family k vars ∧ Passes lib rest

/-- The arguments that are left complete the address. -/
def Completes (lib : Resolver) (s : SocketState) (args : List Text) : Prop :=
  ∃ s', args.foldlM (socketEnv lib) s = some s' ∧ s'.components = 0 ∧
    s'.addr.family ≠ .unspec

theorem completes_cons :
    Completes lib s (env :: args) ↔
      ∃ s', socketEnv lib s env = some s' ∧ Completes lib s' args := by
  unfold Completes
  simp only [List.foldlM_cons, Option.bind_eq_bind, Option.bind_eq_some_iff]
  constructor
  · intro h
    obtain ⟨t, ⟨s', hs', hfold⟩, hrest⟩ := h
    exact ⟨s', hs', t, hfold, hrest⟩
  · intro h
    obtain ⟨s', hs', t, hfold, hrest⟩ := h
    exact ⟨t, ⟨s', hs', hfold⟩, hrest⟩

/-- Behind a `PROTO` with its family and count, what passes makes a list that passes. -/
theorem PassesFrom.afterProto (hstands : Stands s f 1) (hproto : TakenProto f env)
    (h : PassesFrom lib s args) : Passes lib (env :: args) := by
  unfold PassesFrom at h
  rw [hstands.family_eq, hstands.components_eq] at h
  rcases h with ⟨-, k, hk, hvars⟩ | ⟨k, vars, rest, rfl, hvars, hrest⟩
  · obtain rfl : k = 1 := by omega
    exact .last hproto hvars
  · exact .more hproto hvars hrest

theorem completes_iff : Completes lib s args ↔ PassesFrom lib s args := by
  induction args generalizing s with
  | nil =>
    constructor
    · intro h
      obtain ⟨s', hfold, hzero, hne⟩ := h
      obtain rfl : s = s' := by simpa using hfold
      exact .inl ⟨hne, 0, hzero, .nil⟩
    · intro h
      rcases h with ⟨hne, k, hk, hvars⟩ | ⟨k, vars, rest, hnil, -, hrest⟩
      · cases hvars
        exact ⟨s, rfl, hk, hne⟩
      · obtain ⟨-, rfl⟩ := List.append_eq_nil_iff.mp hnil.symm
        cases hrest
  | cons env args ih =>
    rw [completes_cons]
    constructor
    · intro h
      obtain ⟨s', hs', hrest⟩ := h
      rw [ih] at hrest
      rcases socketEnv_some hs' with ⟨f, hproto, hstands⟩ | ⟨required, hvar, hstands⟩
      · exact .inr ⟨0, [], _, rfl, .nil, hrest.afterProto hstands hproto⟩
      · unfold PassesFrom at hrest
        rw [hstands.family_eq, hstands.components_eq] at hrest
        rcases hrest with ⟨hne, k, hk, hvars⟩ | ⟨k, vars, rest, rfl, hvars, hrest⟩
        · exact .inl ⟨hne, _, by omega, .cons hvar hvars⟩
        · exact .inr ⟨_, env :: vars, rest, rfl, .cons hvar hvars, hrest⟩
    · intro h
      rcases h with ⟨hne, k, hk, hvars⟩ | ⟨k, vars, rest, heq, hvars, hrest⟩
      · cases hvars with
        | @cons required _ k _ hvar hvars =>
          obtain ⟨s', hs', hstands⟩ := hvar.socketEnv
          refine ⟨s', hs', ih.mpr (.inl ?_)⟩
          rw [hstands.family_eq, hstands.components_eq]
          exact ⟨hne, k, by omega, hvars⟩
      · cases hvars with
        | nil =>
          rw [List.nil_append] at heq
          rw [← heq] at hrest
          cases hrest with
          | @last f _ _ hproto hvars =>
            have hstands := stands_proto s.addr f hproto.family_ne
            cases hproto with
            | intro hf hn =>
              refine ⟨_, socketEnv_proto s hf hn, ih.mpr (.inl ?_)⟩
              rw [hstands.family_eq, hstands.components_eq]
              exact ⟨hf, 1, rfl, hvars⟩
          | @more f _ k vars rest hproto hvars hrest =>
            have hstands := stands_proto s.addr f hproto.family_ne
            cases hproto with
            | intro hf hn =>
              refine ⟨_, socketEnv_proto s hf hn, ih.mpr (.inr ?_)⟩
              rw [hstands.family_eq]
              exact ⟨k, vars, rest, rfl, hvars, hrest⟩
        | cons hvar hvars =>
          obtain ⟨rfl, rfl⟩ := List.cons.inj heq
          obtain ⟨s', hs', hstands⟩ := hvar.socketEnv
          refine ⟨s', hs', ih.mpr (.inr ?_)⟩
          rw [hstands.family_eq]
          exact ⟨_, _, rest, rfl, hvars, hrest⟩

/-- From the zeroed address on, nothing but a list that passes completes it. -/
theorem completes_start_iff : Completes lib .start args ↔ Passes lib args := by
  rw [completes_iff]
  constructor
  · intro h
    rcases h with ⟨hne, -⟩ | ⟨k, vars, rest, rfl, hvars, hrest⟩
    · exact absurd rfl hne
    · cases hvars with
      | nil => exact hrest
      | cons hvar => exact absurd rfl hvar.family_ne
  · intro h
    exact .inr ⟨0, [], args, rfl, .nil, h⟩

variable {kernel : Kernel}

theorem jobAddSocket_eq_some_iff (hk : kernel.Serves) {a : SocketAddress} :
    jobAddSocket lib kernel args = some a ↔
      ∃ s, args.foldlM (socketEnv lib) .start = some s ∧ s.components = 0 ∧
        s.addr.family ≠ .unspec ∧ s.addr = a := by
  unfold jobAddSocket
  cases args.foldlM (socketEnv lib) .start with
  | none => simp
  | some s =>
    by_cases hf : s.addr.family = .unspec
    · simp [hf, hk.unspec]
    · simp [hf, hk.socket hf, hk.reuseAddr, hk.v6only, hk.bind, hk.listen, hk.epollAdd]

/-- The bridge listens on a socket exactly for the lists that pass. -/
theorem jobAddSocket_isSome_iff (hk : kernel.Serves) :
    (∃ a, jobAddSocket lib kernel args = some a) ↔ Passes lib args := by
  rw [← completes_start_iff]
  simp only [jobAddSocket_eq_some_iff hk, Completes]
  constructor
  · intro h
    obtain ⟨_, s, hfold, hzero, hne, -⟩ := h
    exact ⟨s, hfold, hzero, hne⟩
  · intro h
    obtain ⟨s, hfold, hzero, hne⟩ := h
    exact ⟨_, s, hfold, hzero, hne, rfl⟩

/-! ## Arguments that describe an address -/

theorem atoi_eq (hdigits : Digits 10 v) (hmax : magnitude 10 v < 65536) :
    atoi v = magnitude 10 v := by
  rw [atoi, hdigits.literal.strtol (by unfold longMin; omega) (by unfold longMax; omega)]
  show toInt (magnitude 10 v) = magnitude 10 v
  exact toInt_eq_self (by omega) (by unfold intMax; omega)

/-- What is written replaces as many bytes. -/
theorem overwrite_append {a b c new : List UInt8} {offset : Nat} (ha : a.length = offset)
    (hb : new.length = b.length) : overwrite (a ++ b ++ c) offset new = a ++ new ++ c := by
  rw [overwrite, ← ha, hb, List.append_assoc a b c, List.take_left, ← List.append_assoc a b c,
    ← List.length_append, List.drop_left]

/-- The bytes behind the family, when the port and the address are written in either order. -/
theorem overwrite_inet (port : Int) (ip : Vector UInt8 4) :
    overwrite (overwrite (zeros 108) 0 (portBytes port)) 2 ip.toList =
        portBytes port ++ ip.toList ++ zeros 102 ∧
      overwrite (overwrite (zeros 108) 2 ip.toList) 0 (portBytes port) =
        portBytes port ++ ip.toList ++ zeros 102 := by
  have hport : overwrite (zeros 108) 0 (portBytes port) = portBytes port ++ zeros 4 ++ zeros 102 :=
    overwrite_append (a := []) (b := zeros 2) (c := zeros 106) rfl rfl
  have hip : overwrite (zeros 108) 2 ip.toList = zeros 2 ++ ip.toList ++ zeros 102 :=
    overwrite_append (a := zeros 2) (b := zeros 4) (c := zeros 102) rfl (by simp [zeros])
  constructor
  · rw [hport]
    exact overwrite_append rfl (by simp [zeros])
  · rw [hip, List.append_assoc]
    exact overwrite_append (a := []) (b := zeros 2) rfl rfl

theorem overwrite_inet6 (port : Int) (ip : Vector UInt8 16) :
    overwrite (overwrite (zeros 108) 0 (portBytes port)) 6 ip.toList =
        portBytes port ++ zeros 4 ++ ip.toList ++ zeros 86 ∧
      overwrite (overwrite (zeros 108) 6 ip.toList) 0 (portBytes port) =
        portBytes port ++ zeros 4 ++ ip.toList ++ zeros 86 := by
  have hport : overwrite (zeros 108) 0 (portBytes port) =
      portBytes port ++ zeros 4 ++ zeros 16 ++ zeros 86 :=
    overwrite_append (a := []) (b := zeros 2) (c := zeros 106) rfl rfl
  have hip : overwrite (zeros 108) 6 ip.toList = zeros 6 ++ ip.toList ++ zeros 86 :=
    overwrite_append (a := zeros 6) (b := zeros 16) (c := zeros 86) rfl (by simp [zeros])
  constructor
  · rw [hport]
    exact overwrite_append rfl (by simp [zeros])
  · rw [hip]
    have hsplit : zeros 6 ++ ip.toList ++ zeros 86 =
        [] ++ zeros 2 ++ (zeros 4 ++ ip.toList ++ zeros 86) := rfl
    have hjoin : portBytes port ++ zeros 4 ++ ip.toList ++ zeros 86 =
        [] ++ portBytes port ++ (zeros 4 ++ ip.toList ++ zeros 86) := rfl
    rw [hsplit, hjoin]
    exact overwrite_append rfl rfl

theorem sunPath_eq (fits : (utf8 v).length ≤ 108) :
    overwrite (zeros 108) 0 (sunPath v) = pathBytes v ++ zeros (108 - (utf8 v).length) := by
  have hpath : sunPath v = pathBytes v ++ zeros (108 - (utf8 v).length) := by
    unfold sunPath pathBytes
    rw [List.take_of_length_le fits]
    cases hv : utf8 v with
    | nil => rfl
    | cons b rest =>
      by_cases hb : b = 64
      · rw [hb]
        rfl
      · have hhead : (b :: rest ++ zeros (108 - (b :: rest).length)).head? ≠ some 64 := by
          simpa using hb
        simp only [if_neg hhead]
        split
        · rename_i heq
          exact absurd (List.cons.inj heq).1 hb
        · rfl
  have hlength : (sunPath v).length = 108 := by
    have hpathBytes : (pathBytes v).length = (utf8 v).length := by
      unfold pathBytes
      split
      · rename_i hv
        simp [hv]
      · rfl
    rw [hpath, List.length_append, hpathBytes, zeros, List.length_replicate]
    omega
  rw [← hpath]
  have hwrite : overwrite ([] ++ zeros 108 ++ []) 0 (sunPath v) = [] ++ sunPath v ++ [] :=
    overwrite_append rfl hlength
  simpa using hwrite

/-- The arguments behind the first one, when that is a `PROTO`. -/
theorem tail_perm {proto : Text} {rest : List Text} (hfirst : ProtoFirst args)
    (hperm : args.Perm (proto :: rest))
    (hrest : ∀ env ∈ rest, ¬"PROTO=".toList <+: env) :
    ∃ rest', args = proto :: rest' ∧ rest'.Perm rest := by
  obtain ⟨v, rest', rfl⟩ := hfirst
  have hmem : "PROTO=".toList ++ v ∈ proto :: rest := hperm.subset List.mem_cons_self
  rcases List.mem_cons.mp hmem with heq | hmem
  · rw [heq] at hperm ⊢
    exact ⟨rest', rfl, hperm.cons_inv⟩
  · exact absurd (List.prefix_append _ _) (hrest _ hmem)

theorem AddrArgs.not_proto {m : Nat} {resolve : Text → Option (Vector UInt8 m)}
    {addr : List Text} {ip : Vector UInt8 m} (h : AddrArgs resolve addr ip) :
    ∀ env ∈ addr, ¬"PROTO=".toList <+: env := by
  intro env hmem hproto
  cases h with
  | none => contradiction
  | some =>
    rw [List.mem_singleton.mp hmem] at hproto
    obtain ⟨t, ht⟩ := hproto
    exact absurd (List.cons.inj ht).1 (by decide)

theorem not_proto_cons {env : Text} {rest : List Text} (henv : ¬"PROTO=".toList <+: env)
    (hrest : ∀ env ∈ rest, ¬"PROTO=".toList <+: env) :
    ∀ e ∈ env :: rest, ¬"PROTO=".toList <+: e := by
  intro e hmem
  rcases List.mem_cons.mp hmem with rfl | hmem
  · exact henv
  · exact hrest e hmem

theorem not_proto_port (port : Text) : ¬"PROTO=".toList <+: "PORT=".toList ++ port := by
  intro h
  obtain ⟨t, ht⟩ := h
  simp at ht

theorem not_proto_path (path : Text) : ¬"PROTO=".toList <+: "SOCKET_PATH=".toList ++ path := by
  intro h
  obtain ⟨t, ht⟩ := h
  simp at ht

theorem zeros_toList (m : Nat) : (Vector.replicate m (0 : UInt8)).toList = zeros m := by
  simp [zeros]

theorem foldlM_two {a b : Text} {s₁ s₂ s₃ : SocketState} (ha : socketEnv lib s₁ a = some s₂)
    (hb : socketEnv lib s₂ b = some s₃) : [a, b].foldlM (socketEnv lib) s₁ = some s₃ := by
  rw [List.foldlM_cons, ha, Option.bind_eq_bind, Option.bind_some, List.foldlM_cons, hb]
  rfl

theorem foldlM_three {a b c : Text} {s₁ s₂ s₃ s₄ : SocketState}
    (ha : socketEnv lib s₁ a = some s₂) (hb : socketEnv lib s₂ b = some s₃)
    (hc : socketEnv lib s₃ c = some s₄) : [a, b, c].foldlM (socketEnv lib) s₁ = some s₄ := by
  rw [List.foldlM_cons, ha, Option.bind_eq_bind, Option.bind_some]
  exact foldlM_two hb hc

/-- The address of an IPv4 description. -/
theorem inet_address {rest addr : List Text} {ip : Vector UInt8 4} (hdigits : Digits 10 v)
    (hport : magnitude 10 v < 65536) (haddr : AddrArgs lib.inetAton addr ip)
    (hperm : rest.Perm (("PORT=".toList ++ v) :: addr)) :
    ("PROTO=inet".toList :: rest).foldlM (socketEnv lib) .start =
      some ⟨(Address.inet _ hport ip).sockaddr, 0⟩ := by
  have hproto : socketEnv lib .start "PROTO=inet".toList = some ⟨⟨.inet, zeros 108, 16⟩, 1⟩ :=
    socketEnv_proto (f := .inet) .start (by decide) List.prefix_rfl
  have hset (bytes : List UInt8) (components : Int) :
      socketEnv lib ⟨⟨.inet, bytes, 16⟩, components⟩ ("PORT=".toList ++ v) =
        some ⟨⟨.inet, overwrite bytes 0 (portBytes (magnitude 10 v)), 16⟩, components - 1⟩ := by
    rw [← atoi_eq hdigits hport]
    exact socketEnv_port (.inl rfl) List.prefix_rfl (by decide)
  have hwrite := overwrite_inet (magnitude 10 v) ip
  cases haddr with
  | none =>
    rw [List.perm_singleton.mp hperm]
    rw [foldlM_two hproto (hset _ _), Address.sockaddr, zeros_toList]
    rfl
  | @some val ip hip =>
    have hset' (bytes : List UInt8) (components : Int) :
        socketEnv lib ⟨⟨.inet, bytes, 16⟩, components⟩ ("ADDR=".toList ++ val) =
          some ⟨⟨.inet, overwrite bytes 2 ip.toList, 16⟩, components⟩ :=
      socketEnv_addr rfl List.prefix_rfl (by decide) hip
    rcases List.perm_pair.mp hperm with rfl | rfl
    · rw [foldlM_three hproto (hset _ _) (hset' _ _), hwrite.1]
      rfl
    · rw [foldlM_three hproto (hset' _ _) (hset _ _), hwrite.2]
      rfl

/-- The address of an IPv6 description. -/
theorem inet6_address {rest addr : List Text} {ip : Vector UInt8 16} (hdigits : Digits 10 v)
    (hport : magnitude 10 v < 65536) (haddr : AddrArgs lib.inetPton6 addr ip)
    (hperm : rest.Perm (("PORT=".toList ++ v) :: addr)) :
    ("PROTO=inet6".toList :: rest).foldlM (socketEnv lib) .start =
      some ⟨(Address.inet6 _ hport ip).sockaddr, 0⟩ := by
  have hproto : socketEnv lib .start "PROTO=inet6".toList = some ⟨⟨.inet6, zeros 108, 28⟩, 1⟩ :=
    socketEnv_proto (f := .inet6) .start (by decide) List.prefix_rfl
  have hset (bytes : List UInt8) (components : Int) :
      socketEnv lib ⟨⟨.inet6, bytes, 28⟩, components⟩ ("PORT=".toList ++ v) =
        some ⟨⟨.inet6, overwrite bytes 0 (portBytes (magnitude 10 v)), 28⟩, components - 1⟩ := by
    rw [← atoi_eq hdigits hport]
    exact socketEnv_port (.inr rfl) List.prefix_rfl (by decide)
  have hwrite := overwrite_inet6 (magnitude 10 v) ip
  cases haddr with
  | none =>
    rw [List.perm_singleton.mp hperm]
    rw [foldlM_two hproto (hset _ _), Address.sockaddr, zeros_toList]
    rfl
  | @some val ip hip =>
    have hset' (bytes : List UInt8) (components : Int) :
        socketEnv lib ⟨⟨.inet6, bytes, 28⟩, components⟩ ("ADDR=".toList ++ val) =
          some ⟨⟨.inet6, overwrite bytes 6 ip.toList, 28⟩, components⟩ :=
      socketEnv_addr6 rfl List.prefix_rfl (by decide) hip
    rcases List.perm_pair.mp hperm with rfl | rfl
    · rw [foldlM_three hproto (hset _ _) (hset' _ _), hwrite.1]
      rfl
    · rw [foldlM_three hproto (hset' _ _) (hset _ _), hwrite.2]
      rfl

/-- Arguments that begin with their `PROTO` give the address that they describe. -/
theorem Describes.address {d : Address} (h : Describes lib args d) (hfirst : ProtoFirst args) :
    args.foldlM (socketEnv lib) .start = some ⟨d.sockaddr, 0⟩ := by
  cases h with
  | inet hdigits hport haddr hperm =>
    obtain ⟨rest, rfl, hrest⟩ :=
      tail_perm hfirst hperm (not_proto_cons (not_proto_port _) haddr.not_proto)
    exact inet_address hdigits hport haddr hrest
  | inet6 hdigits hport haddr hperm =>
    obtain ⟨rest, rfl, hrest⟩ :=
      tail_perm hfirst hperm (not_proto_cons (not_proto_port _) haddr.not_proto)
    exact inet6_address hdigits hport haddr hrest
  | @unix path fits hperm =>
    obtain ⟨rest, rfl, hrest⟩ :=
      tail_perm hfirst hperm (not_proto_cons (not_proto_path _) (List.forall_mem_nil _))
    have hproto : socketEnv lib .start "PROTO=unix".toList = some ⟨⟨.unix, zeros 108, 110⟩, 1⟩ :=
      socketEnv_proto (f := .unix) .start (by decide) List.prefix_rfl
    have hset : socketEnv lib ⟨⟨.unix, zeros 108, 110⟩, 1⟩ ("SOCKET_PATH=".toList ++ path) =
        some ⟨⟨.unix, overwrite (zeros 108) 0 (sunPath path), 110⟩, 0⟩ :=
      socketEnv_path rfl List.prefix_rfl (by decide)
    rw [List.perm_singleton.mp hrest, foldlM_two hproto hset, sunPath_eq fits]
    rfl

/-- What describes an address and passes begins with its `PROTO`. -/
theorem Describes.protoFirst {d : Address} (h : Describes lib args d) (hpasses : Passes lib args) :
    ProtoFirst args := by
  obtain ⟨f, env, rest, rfl, hproto⟩ : ∃ f env rest, args = env :: rest ∧ TakenProto f env := by
    cases hpasses with
    | last hproto => exact ⟨_, _, _, rfl, hproto⟩
    | more hproto => exact ⟨_, _, _, rfl, hproto⟩
  -- The other arguments have names that no beginning of `PROTO` is.
  have hother : ∀ m v : Text, '=' ∉ m → ¬m <+: "PROTO".toList → env ≠ m ++ '=' :: v := by
    intro m v hm hname heq
    cases hproto with
    | @intro n hf hn =>
      have hsplit := splitVariable_append (v := f.name) (not_mem_of_isPrefix hn (by decide))
      rw [heq, splitVariable_append hm] at hsplit
      obtain ⟨rfl, -⟩ := Prod.mk.inj (Option.some.inj hsplit)
      exact hname hn
  have haddr : ∀ {m : Nat} {resolve : Text → Option (Vector UInt8 m)} {addr : List Text}
      {ip : Vector UInt8 m}, AddrArgs resolve addr ip → env ∉ addr := by
    intro m resolve addr ip haddr hmem
    cases haddr with
    | none => contradiction
    | @some val ip hip =>
      exact hother "ADDR".toList val (by decide) (by decide) (List.mem_singleton.mp hmem)
  cases h with
  | inet hdigits hport hargs hperm =>
    rcases List.mem_cons.mp (hperm.subset List.mem_cons_self) with rfl | hmem
    · exact ⟨"inet".toList, rest, rfl⟩
    rcases List.mem_cons.mp hmem with heq | hmem
    · exact absurd heq (hother "PORT".toList _ (by decide) (by decide))
    · exact absurd hmem (haddr hargs)
  | inet6 hdigits hport hargs hperm =>
    rcases List.mem_cons.mp (hperm.subset List.mem_cons_self) with rfl | hmem
    · exact ⟨"inet6".toList, rest, rfl⟩
    rcases List.mem_cons.mp hmem with heq | hmem
    · exact absurd heq (hother "PORT".toList _ (by decide) (by decide))
    · exact absurd hmem (haddr hargs)
  | unix fits hperm =>
    rcases List.mem_cons.mp (hperm.subset List.mem_cons_self) with rfl | hmem
    · exact ⟨"unix".toList, rest, rfl⟩
    · exact absurd (List.mem_singleton.mp hmem)
        (hother "SOCKET_PATH".toList _ (by decide) (by decide))

/-- What is described does not depend on the order. -/
theorem Describes.perm {d : Address} {args' : List Text} (h : Describes lib args d)
    (hperm : args'.Perm args) : Describes lib args' d := by
  cases h with
  | inet hdigits hport haddr h => exact .inet hdigits hport haddr (hperm.trans h)
  | inet6 hdigits hport haddr h => exact .inet6 hdigits hport haddr (hperm.trans h)
  | unix fits h => exact .unix fits (hperm.trans h)

/-- The bridge listens on what the arguments describe, and on nothing else, exactly when a
description begins with its `PROTO` and what passes is a description. -/
theorem jobAddSocket_iff (hk : kernel.Serves) :
    (∀ a, jobAddSocket lib kernel args = some a ↔ ∃ d, Describes lib args d ∧ d.sockaddr = a) ↔
      ((∃ d, Describes lib args d) → ProtoFirst args) ∧
        (Passes lib args → ∃ d, Describes lib args d) := by
  constructor
  · intro h
    constructor
    · intro hd
      obtain ⟨d, hd⟩ := hd
      have hopens := (h d.sockaddr).mpr ⟨d, hd, rfl⟩
      exact hd.protoFirst ((jobAddSocket_isSome_iff hk).mp ⟨_, hopens⟩)
    · intro hpasses
      obtain ⟨a, ha⟩ := (jobAddSocket_isSome_iff hk).mpr hpasses
      obtain ⟨d, hd, -⟩ := (h a).mp ha
      exact ⟨d, hd⟩
  · intro h a
    obtain ⟨hfirst, hpasses⟩ := h
    have hopens : ∀ d, Describes lib args d → jobAddSocket lib kernel args = some d.sockaddr := by
      intro d hd
      have hne : d.sockaddr.family ≠ .unspec := by
        cases d with
        | inet => nofun
        | inet6 => nofun
        | unix => nofun
      exact (jobAddSocket_eq_some_iff hk).mpr
        ⟨_, hd.address (hfirst ⟨d, hd⟩), rfl, hne, rfl⟩
    constructor
    · intro ha
      obtain ⟨d, hd⟩ := hpasses ((jobAddSocket_isSome_iff hk).mp ⟨a, ha⟩)
      exact ⟨d, hd, Option.some.inj ((hopens d hd).symm.trans ha)⟩
    · intro ha
      obtain ⟨d, hd, rfl⟩ := ha
      exact hopens d hd

/-- A kernel on which every call that can succeed does. -/
def openKernel : Kernel where
  socket := (· ≠ .unspec)
  reuseAddr := true
  v6only := true
  bind := fun _ => true
  listen := true
  epollAdd := true

theorem openKernel_serves : openKernel.Serves :=
  ⟨rfl, fun hf => decide_eq_true hf, rfl, rfl, fun _ => rfl, rfl, rfl⟩

/-- A library that knows the address of the local host. -/
def localResolver : Resolver where
  inetAton := fun val => if val = "127.0.0.1".toList then some #v[127, 0, 0, 1] else none
  inetPton6 := fun _ => none

/-- The arguments of the web server in the manual page. -/
def webServer : List Text := ["PROTO=inet".toList, "PORT=80".toList, "ADDR=127.0.0.1".toList]

theorem jobAddSocket_iff_webServer :
    jobAddSocket localResolver openKernel webServer =
        some ⟨.inet, [0, 80, 127, 0, 0, 1] ++ zeros 102, 16⟩ ∧
      ∀ a, jobAddSocket localResolver openKernel webServer = some a ↔
        ∃ d, Describes localResolver webServer d ∧ d.sockaddr = a := by
  have hip : localResolver.inetAton "127.0.0.1".toList = some #v[127, 0, 0, 1] := rfl
  have hdescribes : Describes localResolver webServer
      (.inet (magnitude 10 "80".toList) (by decide) #v[127, 0, 0, 1]) :=
    .inet (by decide) (by decide) (.some hip) (.refl _)
  have hexact := (jobAddSocket_iff openKernel_serves).mpr
    ⟨fun _ => ⟨"inet".toList, _, rfl⟩, fun _ => ⟨_, hdescribes⟩⟩
  exact ⟨(hexact _).mpr ⟨_, hdescribes, rfl⟩, hexact⟩

/-- A port that does not fit into 16 bits becomes another one. -/
theorem jobAddSocket_otherPort :
    ¬∀ (lib : Resolver) (kernel : Kernel) (args : List Text), kernel.Serves →
      ∀ a, jobAddSocket lib kernel args = some a ↔
        ∃ d, Describes lib args d ∧ d.sockaddr = a := by
  intro h
  have hopens : jobAddSocket localResolver openKernel ["PROTO=inet".toList, "PORT=65616".toList] =
      some (Address.inet 80 (by decide) #v[0, 0, 0, 0]).sockaddr := by
    decide
  obtain ⟨d, hd, -⟩ := (h _ _ _ openKernel_serves _).mp hopens
  cases hd with
  | @inet addr port _ hdigits hport _ hperm =>
    have hmem : "PORT=".toList ++ port ∈ ["PROTO=inet".toList, "PORT=65616".toList] :=
      hperm.symm.subset (by simp)
    rcases List.mem_cons.mp hmem with heq | hmem
    · simp at heq
    · have hlit : "PORT=".toList ++ port = "PORT=".toList ++ "65616".toList :=
        List.mem_singleton.mp hmem
      rw [List.append_cancel_left hlit] at hport
      exact absurd hport (by decide)
  | inet6 _ _ _ hperm => exact absurd (hperm.symm.subset List.mem_cons_self) (by decide)
  | unix _ hperm => exact absurd (hperm.symm.subset List.mem_cons_self) (by decide)

end Startup.SocketBridge
