/-
The socket pool (`lib/common/socketpool.c`).

# Counters

`_shared.pooled_count` counts the sockets that are kept for reuse,
`_shared.count` those and the ones that are in use or about to be; each target
counts in `leased_count` what is in use of it. The counters are `size_t`; here
they are integers, so that an underflow is a negative number.

Each counter is changed by hand at a dozen places, and by a hook: a socket
that has been given out, or is being connected, carries `on_close`, which runs
when the socket is closed by whoever holds it. The hook takes one from the
`leased_count` of its target and one from `_shared.count`.

# What is decided elsewhere

Whether a pooled socket is alive, whether a name resolves, whether a connect
or a handshake succeeds and which of the targets not tried yet a balancer
selects are parts of the events. URLs are taken up to what `lookup_target`
compares. Other threads do their work between two events.

A socket is known by a number. `sockets` lists the entries in the order of
`all_link`; an entry is put at the end of that list and of the list of its
target, so the latter is the part of the former with that target.
-/
import Mathlib.Tactic

namespace H2o.SocketPool

-- ==== state

/-- `h2o_socketpool_target_type_t`. -/
inductive TargetType where
  | named
  | sockaddr
deriving DecidableEq

/-- What a pool asks of a URL: `detect_target_type`, and whether its scheme is
TLS. -/
structure Config (U : Type) where
  targetType : U → TargetType
  isSsl : U → Bool

/-- `h2o_socketpool_target_t`. -/
structure Target (U : Type) where
  url : U
  leasedCount : Int
deriving DecidableEq

/-- `h2o_socketpool_create_target`. -/
def createTarget {U : Type} (url : U) : Target U where
  url := url
  leasedCount := 0

/-- `struct pool_entry_t`. -/
structure Entry where
  target : Nat
  addedAt : Nat
deriving DecidableEq

/-- The field `sock` of a request. The pointer is not cleared when a connect
has failed and the next attempt begins. -/
inductive SockRef where
  | null
  | connecting
  | handshaking
  | dangling
deriving DecidableEq

/-- `h2o_socketpool_connect_request_t`. `selectedTarget` is `none` for
`SIZE_MAX`; `tried` lists the targets that are set in `lb.tried`, `none` when
that is `NULL`; `getaddr` says that `getaddr_req` is not `NULL`. -/
structure Request where
  id : Nat
  selectedTarget : Option Nat
  remainingTryCount : Nat
  tried : Option (List Nat)
  getaddr : Bool
  sock : SockRef
deriving DecidableEq

/-- A socket that has been given out, with its `on_close_data_t`. -/
structure Handed where
  sock : Nat
  target : Nat
deriving DecidableEq

/-- `h2o_socketpool_t`, with the requests and the sockets that belong to it. A
pool is global if it has no balancer. -/
structure Pool (U : Type) where
  isGlobal : Bool
  timeout : Nat
  loop : Bool
  targets : List (Target U)
  sockets : List Entry
  count : Int
  pooledCount : Int
  requests : List Request
  handedOut : List Handed
  nextSock : Nat
deriving DecidableEq

inductive Fault where
  /-- An assertion, or a balancer without a target to select. -/
  | assertion
  /-- The socket of a failed connect is used again. -/
  | useAfterFree
deriving DecidableEq

variable {U : Type}

/-- `common_init`. -/
def commonInit (isGlobal : Bool) (timeout : Nat) (loop : Bool)
    (targets : List (Target U)) : Pool U where
  isGlobal := isGlobal
  timeout := timeout
  loop := loop
  targets := targets
  sockets := []
  count := 0
  pooledCount := 0
  requests := []
  handedOut := []
  nextSock := 0

/-- `h2o_socketpool_init_specific`; there is at least one target. -/
def initSpecific (timeout : Nat) (loop : Bool) (url : U) (urls : List U) :
    Pool U :=
  commonInit false timeout loop ((url :: urls).map createTarget)

/-- `h2o_socketpool_init_global`. -/
def initGlobal (timeout : Nat) (loop : Bool) : Pool U :=
  commonInit true timeout loop []

-- ==== counters

/-- `__sync_add_and_fetch` or `__sync_sub_and_fetch` of a `leased_count`. -/
def Pool.addLeased (p : Pool U) (target : Nat) (n : Int) : Pool U :=
  { p with
    targets := p.targets.modify target fun t =>
      { t with leasedCount := t.leasedCount + n } }

def Pool.addCount (p : Pool U) (n : Int) : Pool U :=
  { p with count := p.count + n }

def Pool.addPooledCount (p : Pool U) (n : Int) : Pool U :=
  { p with pooledCount := p.pooledCount + n }

/-- The hook `on_close`. -/
def Pool.onClose (p : Pool U) (target : Nat) : Pool U :=
  (p.addLeased target (-1)).addCount (-1)

-- ==== expiry

/-- The loop of `destroy_expired_locked`. -/
def Pool.destroyEntries (expireBefore : Nat) : List Entry → Pool U → Pool U
  | [], p => { p with sockets := [] }
  | entry :: entries, p =>
    if entry.addedAt > expireBefore then
      { p with sockets := entry :: entries }
    else
      destroyEntries expireBefore entries
        ((p.addCount (-1)).addPooledCount (-1))

/-- `destroy_expired_locked`; the difference of the times may wrap. -/
def Pool.destroyExpired (p : Pool U) (now : Nat) : Pool U :=
  if p.loop then
    destroyEntries ((now + 2 ^ 64 - p.timeout) % 2 ^ 64) p.sockets p
  else p

-- ==== connecting

/-- What comes of an attempt: which of the targets left the balancer selects,
and whether `h2o_socket_connect` returns a socket. -/
structure Attempt where
  choice : Nat
  connected : Bool
deriving DecidableEq

/-- The selection in `try_connect`. A balancer returns a target that has not
been tried. -/
def Pool.selectTarget (p : Pool U) (req : Request) (choice : Nat) :
    Option Request :=
  match req.tried with
  | none => some req
  | some tried =>
    if p.targets.length > 1 then
      let untried := (List.range p.targets.length).filter (· ∉ tried)
      match untried[choice % untried.length]? with
      | none => none
      | some target =>
        some { req with
          selectedTarget := some target
          tried := some (target :: tried) }
    else some { req with selectedTarget := some 0 }

/-- A request that waits for something. -/
def Pool.pushRequest (p : Pool U) (req : Request) : Pool U :=
  { p with requests := req :: p.requests }

/-- `start_connect`, with what `try_connect` does next. The request is gone
when `call_connect_cb` has been called. -/
def startConnect (retry : Pool U → Request → Except Fault (Pool U))
    (p : Pool U) (req : Request) (target : Nat) (connected : Bool) :
    Except Fault (Pool U) :=
  if connected then .ok (p.pushRequest { req with sock := .connecting })
  else
    let p := p.addLeased target (-1)
    if req.remainingTryCount > 0 then retry p { req with sock := .null }
    else .ok (p.addCount (-1))

/-- `try_connect`, by the number of tries that remain. -/
def tryConnect (cfg : Config U) :
    Nat → Pool U → Request → List Attempt → Except Fault (Pool U)
  | 0, _, _, _ => .error .assertion
  | n + 1, p, req, attempts =>
    let attempt := attempts.headD ⟨0, true⟩
    match p.selectTarget { req with remainingTryCount := n }
      attempt.choice with
    | none => .error .assertion
    | some req =>
      match req.selectedTarget with
      | none => .error .assertion
      | some i =>
        match p.targets[i]? with
        | none => .error .assertion
        | some target =>
          let p := p.addLeased i 1
          match cfg.targetType target.url with
          | .named => .ok (p.pushRequest { req with getaddr := true })
          | .sockaddr =>
            startConnect (fun p req => tryConnect cfg n p req attempts.tail)
              p req i attempt.connected

/-- The end of an attempt that has failed before there was a socket. -/
def Pool.retryOrFail (cfg : Config U) (p : Pool U) (req : Request)
    (attempts : List Attempt) : Except Fault (Pool U) :=
  if req.remainingTryCount > 0 then
    tryConnect cfg req.remainingTryCount p req attempts
  else .ok (p.addCount (-1))

/-- `on_getaddr`. -/
def onGetaddr (cfg : Config U) (p : Pool U) (req : Request) (target : Nat)
    (failed : Bool) (attempts : List Attempt) : Except Fault (Pool U) :=
  let req := { req with getaddr := false }
  if failed then (p.addLeased target (-1)).retryOrFail cfg req attempts
  else
    startConnect (fun p req =>
      tryConnect cfg req.remainingTryCount p req attempts.tail)
      p req target (attempts.headD ⟨0, true⟩).connected

/-- A socket is given to the one who asked. -/
def Pool.handOut (p : Pool U) (target : Nat) : Pool U :=
  { p with
    handedOut := ⟨p.nextSock, target⟩ :: p.handedOut
    nextSock := p.nextSock + 1 }

/-- `on_connect`. -/
def onConnect (cfg : Config U) (p : Pool U) (req : Request) (target : Nat)
    (failed : Bool) (attempts : List Attempt) : Except Fault (Pool U) :=
  if failed then
    ((p.addLeased target (-1)).onClose target).retryOrFail cfg
      { req with sock := .dangling } attempts
  else
    match p.targets[target]? with
    | none => .error .assertion
    | some t =>
      if cfg.isSsl t.url then
        .ok (p.pushRequest { req with sock := .handshaking })
      else .ok (p.handOut target)

/-- `on_handshake_complete`. -/
def onHandshakeComplete (p : Pool U) (target : Nat) (failed : Bool) : Pool U :=
  if failed then p.onClose target else p.handOut target

/-- The entry that `h2o_socketpool_connect` looks at next, and the others. -/
def Pool.nextEntry (p : Pool U) (target : Option Nat) :
    Option (Entry × List Entry) :=
  let wanted := fun entry : Entry => target.all fun t => entry.target = t
  match p.sockets.find? wanted with
  | none => none
  | some entry => some (entry, p.sockets.eraseP wanted)

/-- The loop of `h2o_socketpool_connect` over the pooled sockets, by their
number; `alive` are the results of the liveness tests. Says whether a socket
has been given out. -/
def Pool.reuse (target : Option Nat) : Nat → Pool U → List Bool → Pool U × Bool
  | 0, p, _ => (p, false)
  | n + 1, p, alive =>
    match p.nextEntry target with
    | none => (p, false)
    | some (entry, rest) =>
      let p := Pool.addPooledCount { p with sockets := rest } (-1)
      if alive.headD true then
        ((p.addLeased entry.target 1).handOut entry.target, true)
      else reuse target n p alive.tail

/-- `lookup_target`, and the target that is added to a global pool. -/
def Pool.findTarget [DecidableEq U] (p : Pool U) (url : U) : Pool U × Nat :=
  match p.targets.findIdx? fun t => t.url = url with
  | some i => (p, i)
  | none =>
    ({ p with targets := p.targets ++ [createTarget url] }, p.targets.length)

/-- The target whose sockets are looked at; a pool with a balancer takes a
socket of any. -/
def Pool.lookup [DecidableEq U] (p : Pool U) (url : U) : Pool U × Option Nat :=
  if p.isGlobal then ((p.findTarget url).1, some (p.findTarget url).2)
  else (p, none)

/-- A new request, from `SkipLookup` on. -/
def Pool.newRequest (cfg : Config U) (p : Pool U) (id : Nat)
    (target : Option Nat) (attempts : List Attempt) : Except Fault (Pool U) :=
  let p := p.addCount 1
  let tries := if target.isNone then p.targets.length else 1
  tryConnect cfg tries p
    { id := id, selectedTarget := target, remainingTryCount := tries
      tried := if target.isNone then some [] else none
      getaddr := false, sock := .null } attempts

/-- `h2o_socketpool_connect`. -/
def Pool.connect [DecidableEq U] (cfg : Config U) (p : Pool U) (id : Nat)
    (url : U) (now : Nat) (alive : List Bool) (attempts : List Attempt) :
    Except Fault (Pool U) :=
  if p.timeout = 0 ∧ !p.isGlobal then p.newRequest cfg id none attempts
  else
    let r := (p.destroyExpired now).lookup url
    if r.1.targets.length = 0 then .error .assertion
    else
      match Pool.reuse r.2 r.1.sockets.length r.1 alive with
      | (p, true) => .ok p
      | (p, false) => p.newRequest cfg id r.2 attempts

/-- `h2o_socketpool_cancel_connect`. -/
def Pool.cancelConnect (p : Pool U) (req : Request) (target : Nat) :
    Except Fault (Pool U) :=
  if req.sock = .dangling then .error .useAfterFree
  else
    let p := if req.sock = .null then p else p.onClose target
    .ok (if req.tried.isSome then p.addLeased target (-1) else p)

/-- `h2o_socketpool_return`, once the socket is not given out any more. -/
def Pool.returnSock (p : Pool U) (target : Nat) (exported : Bool) (now : Nat) :
    Pool U :=
  let p := p.addLeased target (-1)
  if exported then
    let p := p.addPooledCount 1
    Pool.destroyExpired { p with sockets := p.sockets ++ [⟨target, now⟩] } now
  else p.addCount (-1)

/-- `h2o_socketpool_detach`. -/
def Pool.detach (p : Pool U) (target : Nat) : Pool U :=
  (p.addLeased target (-1)).addCount (-1)

-- ==== steps

inductive Event (U : Type) where
  | connect (id : Nat) (url : U) (now : Nat) (alive : List Bool)
    (attempts : List Attempt)
  | getaddr (id : Nat) (failed : Bool) (attempts : List Attempt)
  | connected (id : Nat) (failed : Bool) (attempts : List Attempt)
  | handshake (id : Nat) (failed : Bool)
  | cancel (id : Nat)
  | return (sock : Nat) (exported : Bool) (now : Nat)
  | detach (sock : Nat)
  /-- Whoever holds a socket closes it. -/
  | close (sock : Nat)
  /-- `on_timeout`. -/
  | expire (now : Nat)
deriving DecidableEq

/-- A request is taken up again, for which `ready` holds. -/
def Pool.withRequest (p : Pool U) (id : Nat) (ready : Request → Bool)
    (f : Pool U → Request → Nat → Except Fault (Pool U)) :
    Except Fault (Pool U) :=
  match p.requests.find? fun req => req.id = id && ready req with
  | none => .ok p
  | some req =>
    match req.selectedTarget with
    | none => .error .assertion
    | some target =>
      f { p with
        requests := p.requests.eraseP fun req => req.id = id && ready req }
          req target

/-- A socket that has been given out comes back. -/
def Pool.withSock (p : Pool U) (sock : Nat) (f : Pool U → Nat → Pool U) :
    Pool U :=
  match p.handedOut.find? fun h => h.sock = sock with
  | none => p
  | some h => f { p with
    handedOut := p.handedOut.eraseP fun h => h.sock = sock } h.target

def Pool.step [DecidableEq U] (cfg : Config U) (p : Pool U) (e : Event U) :
    Except Fault (Pool U) :=
  match e with
  | .connect id url now alive attempts =>
    p.connect cfg id url now alive attempts
  | .getaddr id failed attempts =>
    p.withRequest id (fun req => req.getaddr) fun p req target =>
      onGetaddr cfg p req target failed attempts
  | .connected id failed attempts =>
    p.withRequest id (fun req => req.sock = .connecting) fun p req target =>
      onConnect cfg p req target failed attempts
  | .handshake id failed =>
    p.withRequest id (fun req => req.sock = .handshaking)
      fun p _ target => .ok (onHandshakeComplete p target failed)
  | .cancel id =>
    p.withRequest id (fun _ => true) fun p req target =>
      p.cancelConnect req target
  | .return sock exported now =>
    .ok (p.withSock sock fun p target => p.returnSock target exported now)
  | .detach sock => .ok (p.withSock sock Pool.detach)
  | .close sock => .ok (p.withSock sock Pool.onClose)
  | .expire now => .ok (p.destroyExpired now)

end H2o.SocketPool
