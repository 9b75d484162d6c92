/-
Happy eyeballs of the CONNECT handler (`lib/handler/connect.c`).

# The generator

Two lookups run side by side. Addresses that pass the ACL are stored in `list`,
of which the first `used` have been tried. `eyeball_delay` is one timer with
two roles: it delays the first attempt while the lookup of IPv6 addresses is
still running, and it ends an attempt that takes long. `timeout` is the
connect timeout until there is a connection, and the one of the tunnel then.

# The environment

A connection attempt either fails at once (`Config.connect`, by the number of
the attempt), or a socket is open until its callback or until it is closed;
`connecting` is what the event loop knows of those. `stored`, `attempts` and
`responses` record what has been done.

The tunnel, and a client that goes away, are not modelled.
-/
import Mathlib.Data.List.Basic

namespace H2o.Connect

-- ==== ACL

/-- `struct sockaddr`, in host byte order. -/
inductive SockAddr where
  | v4 (addr : UInt32) (port : UInt16)
  | v6 (addr : List UInt8) (port : UInt16)
  | other
deriving DecidableEq

inductive Family where
  | v4
  | v6
deriving DecidableEq

/-- `sa_family`. -/
def SockAddr.family : SockAddr → Option Family
  | .v4 _ _ => some .v4
  | .v6 _ _ => some .v6
  | .other => none

inductive AclAddress where
  | any
  | v4 (addr : UInt32)
  | v6 (addr : List UInt8)
deriving DecidableEq

/-- `h2o_connect_acl_entry_t`; a port of 0 is any. -/
structure AclEntry where
  allow : Bool
  addr : AclAddress
  addrMask : Nat
  port : UInt16
deriving DecidableEq

/-- `TO_BITMASK(uint32_t, len)`. -/
def toBitmask32 (len : Nat) : UInt32 :=
  ~~~((1 <<< UInt32.ofNat (32 - len)) - 1)

/-- `TO_BITMASK(uint8_t, len)`. -/
def toBitmask8 (len : Nat) : UInt8 := ~~~((1 <<< UInt8.ofNat (8 - len)) - 1)

/-- Does the address of the entry cover the target? -/
def AclEntry.covers (entry : AclEntry) (target : SockAddr) : Bool :=
  match entry.addr, target with
  | .any, _ => true
  | .v4 addr, .v4 targetAddr _ =>
    addr = targetAddr &&& toBitmask32 entry.addrMask
  | .v6 addr, .v6 targetAddr _ =>
    let i := entry.addrMask / 8
    addr.take i = targetAddr.take i ∧ (entry.addrMask % 8 = 0 ∨ addr.getD i 0 =
          targetAddr.getD i 0 &&& toBitmask8 (entry.addrMask % 8))
  | _, _ => false

/-- The loop of `h2o_connect_lookup_acl`. -/
def checkEntries (target : SockAddr) (targetPort : UInt16) :
    List AclEntry → Bool
  | [] => false
  | entry :: entries =>
    if entry.port ≠ 0 ∧ entry.port ≠ targetPort then
      checkEntries target targetPort entries
    else if entry.covers target then entry.allow
    else checkEntries target targetPort entries

/-- `h2o_connect_lookup_acl`. -/
def lookupAcl (entries : List AclEntry) (target : SockAddr) : Bool :=
  match target with
  | .v4 _ port | .v6 _ port => checkEntries target port entries
  | .other => false

-- ==== errors

/-- The error strings that are told apart by their address. -/
inductive ErrorString where
  | hostinfoNxdomain
  | hostinfoNodata
  | hostinfoRefused
  | hostinfoServfail
  | socketConnRefused
  | socketConnTimedOut
  | socketNetworkUnreachable
  | socketHostUnreachable
  | httpclientIoTimeout
  | other (str : String)
deriving DecidableEq

/-- `enum error_class`. -/
inductive ErrorClass where
  | nameResolution
  | accessProhibited
  | connect
deriving DecidableEq

def ErrorClass.rank : ErrorClass → Nat
  | .nameResolution => 0
  | .accessProhibited => 1
  | .connect => 2

/-- The arguments of `record_error`. -/
structure ErrorRecord where
  addr : Option SockAddr
  errorType : String
  details : Option ErrorString
  rcode : Option String
deriving DecidableEq

/-- What is sent to the client. -/
inductive Response where
  | success (status : Nat) (nextHop : Option SockAddr)
  | error (code : Nat) (msg : String) (errstr : Option ErrorString)
    (record : ErrorRecord)
deriving DecidableEq

-- ==== generator

/-- The callbacks of `eyeball_delay`. -/
inductive DelayCb where
  /-- `on_resolution_delay_timeout`. -/
  | resolution
  /-- `on_connection_attempt_delay_timeout`. -/
  | attempt
deriving DecidableEq

/-- The callbacks of `timeout`. -/
inductive TimeoutCb where
  /-- `on_connect_timeout`. -/
  | connect
  /-- `on_io_timeout`. -/
  | io
deriving DecidableEq

/-- A call of `tcp_start_connect` or `udp_connect`: the address, and what was
untried before it. -/
structure Attempt where
  addr : SockAddr
  untried : List SockAddr
deriving DecidableEq

/-- `struct st_connect_generator_t`. -/
structure Generator where
  getaddrV4 : Bool
  getaddrV6 : Bool
  list : List SockAddr
  used : Nat
  sock : Option Nat
  lastClass : ErrorClass
  lastStr : Option ErrorString
  timeoutLinked : Bool
  timeoutCb : TimeoutCb
  delayLinked : Bool
  delayCb : Option DelayCb
  pickV4 : Bool
  /-- The sockets that are open and not connected yet. -/
  connecting : List Nat
  stored : List SockAddr
  attempts : List Attempt
  responses : List Response
deriving DecidableEq

structure Config where
  acl : List AclEntry
  isTcp : Bool
  /-- The response of a tunnel over UDP is a 101: the version is below 2, and
  it is not draft 3. -/
  isUpgrade : Bool
  /-- How `h2o_socket_connect` or `connect` fails at once, by the number of the
  attempt. -/
  connect : Nat → Option ErrorString

inductive Fault where
  | assertion
  /-- A timer or a socket is used that is not there. -/
  | null
  /-- `h2o_timer_link` of a timer that is linked. -/
  | linked
  /-- `try_connect` does not return. -/
  | loop
deriving DecidableEq

/-- `on_req_core`. -/
def Generator.init : Generator where
  getaddrV4 := true
  getaddrV6 := true
  list := []
  used := 0
  sock := none
  lastClass := .nameResolution
  lastStr := none
  timeoutLinked := true
  timeoutCb := .connect
  delayLinked := false
  delayCb := none
  pickV4 := false
  connecting := []
  stored := []
  attempts := []
  responses := []

/-- `get_dest_addr`. -/
def Generator.destAddr (g : Generator) : Option SockAddr :=
  if g.used > 0 then g.list[g.used - 1]? else none

/-- `stop_eyeballs`. -/
def Generator.stopEyeballs (g : Generator) : Generator :=
  { g with
    getaddrV4 := false
    getaddrV6 := false
    delayLinked := g.delayLinked && g.delayCb.isNone
    delayCb := none }

/-- `h2o_socket_close` of the socket, which is set to `NULL` then. -/
def Generator.closeSock (g : Generator) : Except Fault Generator :=
  match g.sock with
  | none => .error .null
  | some id => .ok { g with sock := none, connecting := g.connecting.erase id }

/-- `h2o_timer_link` of `eyeball_delay`. -/
def Generator.linkDelay (g : Generator) (cb : DelayCb) :
    Except Fault Generator :=
  if g.delayLinked then .error .linked
  else .ok { g with delayLinked := true, delayCb := some cb }

/-- `send_connect_error`, after `record_error`. -/
def Generator.sendConnectError (g : Generator) (code : Nat) (msg : String)
    (errstr : Option ErrorString) (record : ErrorRecord) : Generator :=
  let g := g.stopEyeballs
  { g with
    timeoutLinked := false
    sock := none
    connecting := g.sock.elim g.connecting g.connecting.erase
    responses := g.responses ++ [.error code msg errstr record] }

/-- `on_connect_error`. -/
def Generator.onConnectError (g : Generator) (errstr : Option ErrorString)
    (record : ErrorRecord) : Generator :=
  g.sendConnectError 502 "Gateway Error" errstr record

/-- `set_last_error`. -/
def Generator.setLastError (g : Generator) (cls : ErrorClass)
    (str : ErrorString) : Generator :=
  if g.lastClass.rank ≤ cls.rank then
    { g with lastClass := cls, lastStr := some str }
  else g

/-- What `record_socket_error` records. -/
def Generator.socketErrorRecord (g : Generator) (err : Option ErrorString) :
    ErrorRecord :=
  match err with
  | some .socketConnRefused => ⟨g.destAddr, "connection_refused", none, none⟩
  | some .socketConnTimedOut => ⟨g.destAddr, "connection_timeout", none, none⟩
  | some .socketNetworkUnreachable | some .socketHostUnreachable =>
    ⟨g.destAddr, "destination_ip_unroutable", none, none⟩
  | err => ⟨g.destAddr, "proxy_internal_error", err, none⟩

/-- The `rcode` of a lookup that failed. -/
def rcode : Option ErrorString → Option String
  | some .hostinfoNxdomain => some "NXDOMAIN"
  | some .hostinfoNodata => some "NODATA"
  | some .hostinfoRefused => some "REFUSED"
  | some .hostinfoServfail => some "SERVFAIL"
  | _ => none

-- ==== attempts

/-- The family that is preferred next. -/
def Generator.preferred (g : Generator) : Family :=
  if g.pickV4 then .v4 else .v6

/-- `pick_and_swap`, of the address that is `i` behind `used`. -/
def Generator.pickAndSwap (g : Generator) (i : Nat) :
    Option (SockAddr × Generator) :=
  match g.list[g.used + i]?, g.list[g.used]? with
  | some addr, some first =>
    some (addr, { g with
      list := (g.list.set (g.used + i) first).set g.used addr
      used := g.used + 1
      pickV4 := !g.pickV4
      attempts := g.attempts ++ [⟨addr, g.list.drop g.used⟩] })
  | _, _ => none

/-- `get_next_server_address_for_connect`. -/
def Generator.nextServerAddress (g : Generator) :
    Option (SockAddr × Generator) :=
  match (g.list.drop g.used).findIdx? (·.family = some g.preferred) with
  | some i => g.pickAndSwap i
  | none =>
    g.list[g.used]?.map fun addr =>
      (addr, { g with
        used := g.used + 1
        attempts := g.attempts ++ [⟨addr, g.list.drop g.used⟩] })

/-- `tcp_start_connect`, when the attempt does not fail at once. -/
def Generator.tcpStartConnect (g : Generator) : Except Fault Generator :=
  { g with
    sock := some g.used
    connecting := g.connecting ++ [g.used] }.linkDelay .attempt

/-- `udp_connect`, likewise. As there is no socket yet, `reset_io_timeout` does
nothing. -/
def Generator.udpConnect (cfg : Config) (g : Generator) : Generator :=
  { g.stopEyeballs with
    timeoutCb := .io
    sock := some g.used
    responses := g.responses ++
      [.success (if cfg.isUpgrade then 101 else 200) g.destAddr] }

/-- The loop of `try_connect`. -/
def Generator.tryConnectLoop (cfg : Config) :
    Nat → Generator → Except Fault Generator
  | 0, _ => .error .loop
  | rounds + 1, g =>
    match g.nextServerAddress with
    | none =>
      if g.getaddrV4 ∨ g.getaddrV6 then .ok g
      else if g.lastClass ≠ .connect then .error .assertion
      else .ok (g.onConnectError g.lastStr (g.socketErrorRecord g.lastStr))
    | some (_, g) =>
      match cfg.connect g.used with
      | some err => (g.setLastError .connect err).tryConnectLoop cfg rounds
      | none =>
        if cfg.isTcp then g.tcpStartConnect else .ok (g.udpConnect cfg)

/-- `try_connect`. There are no more rounds than untried addresses, and one. -/
def Generator.tryConnect (cfg : Config) (g : Generator) :
    Except Fault Generator :=
  g.tryConnectLoop cfg (g.list.length - g.used + 1)

-- ==== lookups

/-- `MAX_ADDRESSES_PER_FAMILY`. -/
def maxAddressesPerFamily : Nat := 4

/-- The loop of `store_server_addresses`: the list, and how many have been
added. -/
def storeServerAddresses (acl : List AclEntry) :
    List SockAddr → Nat → List SockAddr → Except Fault (List SockAddr × Nat)
  | list, numAdded, [] => .ok (list, numAdded)
  | list, numAdded, addr :: rest =>
    if 2 * maxAddressesPerFamily ≤ list.length then .error .assertion
    else
      let added := lookupAcl acl addr
      let list := if added then list ++ [addr] else list
      let numAdded := if added then numAdded + 1 else numAdded
      if numAdded < maxAddressesPerFamily then
        storeServerAddresses acl list numAdded rest
      else .ok (list, numAdded)

/-- What a lookup gives; there is at least one address if it succeeds. -/
inductive Lookup where
  | addresses (first : SockAddr) (rest : List SockAddr)
  | error (errstr : ErrorString)
deriving DecidableEq

/-- The addresses are stored, or the error is. -/
def Generator.storeLookup (cfg : Config) (g : Generator) (res : Lookup) :
    Except Fault Generator :=
  match res with
  | .addresses first rest =>
    (storeServerAddresses cfg.acl g.list 0 (first :: rest)).map fun r =>
      let g := { g with
        list := r.1, stored := g.stored ++ r.1.drop g.list.length }
      if r.2 = 0 then
        g.setLastError .accessProhibited (.other "destination_ip_prohibited")
      else g
  | .error errstr => .ok (g.setLastError .nameResolution errstr)

/-- The end of `on_getaddr`. -/
def Generator.continueConnect (cfg : Config) (g : Generator) :
    Except Fault Generator :=
  match g.sock with
  | none => g.tryConnect cfg
  | some _ =>
    if g.delayLinked then .ok g
    else if g.used = g.list.length then .ok g
    else g.closeSock.bind fun g => g.tryConnect cfg

/-- No address is available. -/
def Generator.sendLookupError (g : Generator) : Generator :=
  if g.lastClass = .accessProhibited then
    g.sendConnectError 403 "Destination IP Prohibited"
      (some (.other "Destination IP Prohibited"))
      -- `last_error.str`, which is set with the class
      ⟨none, "destination_ip_prohibited", none, none⟩
  else
    g.onConnectError g.lastStr ⟨none, "dns_error", g.lastStr, rcode g.lastStr⟩

/-- The resolution delay ends when both lookups are complete. -/
def Generator.unlinkResolution (g : Generator) : Except Fault Generator :=
  if g.delayLinked ∧ g.delayCb = some .resolution then
    if g.used ≠ 0 then .error .assertion
    else .ok { g with delayLinked := false }
  else .ok g

/-- `on_getaddr`, after the result has been stored. -/
def Generator.afterLookup (cfg : Config) (g : Generator) :
    Except Fault Generator :=
  if g.getaddrV4 then g.continueConnect cfg
  else if g.getaddrV6 then
    if g.used ≠ 0 then .error .assertion
    else if g.list ≠ [] then g.linkDelay .resolution
    else .ok g
  else
    g.unlinkResolution.bind fun g =>
      if g.list = [] then .ok g.sendLookupError else g.continueConnect cfg

/-- A lookup that was running is complete. -/
def Generator.complete (g : Generator) : Family → Generator
  | .v4 => { g with getaddrV4 := false }
  | .v6 => { g with getaddrV6 := false }

/-- `on_getaddr`. -/
def Generator.onGetaddr (cfg : Config) (g : Generator) (family : Family)
    (res : Lookup) : Except Fault Generator :=
  ((g.complete family).storeLookup cfg res).bind fun g => g.afterLookup cfg

-- ==== events

/-- `tcp_on_connect`. -/
def Generator.tcpOnConnect (cfg : Config) (g : Generator) (id : Nat)
    (err : Option ErrorString) : Except Fault Generator :=
  if g.sock ≠ some id then .error .assertion
  else
    match err with
    | some err =>
      (g.setLastError .connect err).closeSock.bind fun g => g.tryConnect cfg
    | none =>
      .ok { g.stopEyeballs with
        timeoutCb := .io
        timeoutLinked := true
        responses := g.responses ++ [.success 200 g.destAddr] }

/-- The expiry of `eyeball_delay`. -/
def Generator.onDelay (cfg : Config) (g : Generator) :
    Except Fault Generator :=
  match g.delayCb with
  | none => .error .null
  | some .resolution =>
    if g.used ≠ 0 then .error .assertion else g.tryConnect cfg
  | some .attempt =>
    if g.used = g.list.length then .ok g
    else g.closeSock.bind fun g => g.tryConnect cfg

/-- `on_connect_timeout`. -/
def Generator.onConnectTimeout (g : Generator) : Generator :=
  g.onConnectError (some .httpclientIoTimeout)
    (if g.list ≠ [] then ⟨g.destAddr, "connection_timeout", none, none⟩
     else ⟨none, "dns_timeout", none, none⟩)

inductive Event where
  | getaddr (family : Family) (res : Lookup)
  /-- The callback of a socket. -/
  | connected (id : Nat) (err : Option ErrorString)
  /-- `eyeball_delay` expires. -/
  | delay
  /-- `timeout` expires. -/
  | timeout
deriving DecidableEq

/-- Is the lookup running? -/
def Generator.pending (g : Generator) : Family → Bool
  | .v4 => g.getaddrV4
  | .v6 => g.getaddrV6

def Generator.step (cfg : Config) (g : Generator) (e : Event) :
    Except Fault Generator :=
  match e with
  | .getaddr family res =>
    if g.pending family then g.onGetaddr cfg family res else .ok g
  | .connected id err =>
    if id ∈ g.connecting then
      { g with connecting := g.connecting.erase id }.tcpOnConnect cfg id err
    else .ok g
  | .delay =>
    if g.delayLinked then { g with delayLinked := false }.onDelay cfg
    else .ok g
  | .timeout =>
    if g.timeoutLinked ∧ g.timeoutCb = .connect then
      .ok { g with timeoutLinked := false }.onConnectTimeout
    else .ok g

end H2o.Connect
