/-
What holds along every run of happy eyeballs.

# The phases

Until a response is sent a generator waits for a lookup, all it has being
tried (`waiting`), or holds back addresses of IPv4 (`resolving`), or has one
attempt under way (`connecting`). `tryConnectLoop_spec` says that `try_connect`
leads from `Ready` to one of these or to a response, and every handler gets to
`Ready` or stays where it is.

# The timer

`tcp_start_connect` links the timer of the attempt. `tcp_on_connect` does not
unlink it when the attempt fails, so that the next attempt must not begin
before the timer has expired (`Late`).

# The order of the attempts

`pick_v4` is always the family that was not tried last (`Log.pick`), by a
preferred address or for want of one.
-/
import H2o.Connect.Eyeballs
import H2o.Lib.Ensures

namespace H2o.Connect

open Lib List Option

variable {extra : List SockAddr} {family : Family} {id : Nat}

variable {cfg : Config} {g g' : Generator}

-- ==== the log

/-- There are addresses of both families. -/
def Mixed (untried : List SockAddr) : Prop :=
  ∀ family : Family, ∃ a ∈ untried, a.family = some family

/-- While both families have untried addresses, the other one is next. -/
def Alternates (a b : Attempt) : Prop :=
  Mixed b.untried → b.addr.family ≠ a.addr.family

/-- What has been tried, and in which order. -/
structure Log (g : Generator) : Prop where
  used_le : g.used ≤ g.list.length
  perm : g.list.Perm g.stored
  tried : g.attempts.map Attempt.addr = g.list.take g.used
  chain : g.attempts.IsChain Alternates
  pick : ∀ a ∈ g.attempts.getLast?, a.addr.family ≠ some g.preferred

/-- Another address is tried; nothing else changes. -/
structure NextAddress (g g' : Generator) : Prop where
  log : Log g'
  used : g'.used = g.used + 1
  length : g'.list.length = g.list.length
  rest : g' = { g with
    list := g'.list, used := g'.used, pickV4 := g'.pickV4
    attempts := g'.attempts }

/-- The families of the attempts alternate. -/
theorem attempts_chain {addr : SockAddr} (h : Log g)
    (haddr : Mixed (g.list.drop g.used) → addr.family = some g.preferred) :
    List.IsChain Alternates (g.attempts ++ [⟨addr, g.list.drop g.used⟩]) := by
  refine isChain_append.2 ⟨h.chain, isChain_singleton _, ?_⟩
  intro a ha b hb
  cases hb
  intro hmixed hsame
  exact h.pick a ha (hsame ▸ haddr hmixed)

/-- The address picked is of the preferred family. -/
theorem pickAndSwap_spec {i : Nat} (h : Log g)
    (hi : g.used + i < g.list.length)
    (hfamily : (g.list[g.used + i]).family = some g.preferred) :
    ∃ a g', g.pickAndSwap i = some (a, g') ∧ NextAddress g g' := by
  have hused : g.used < g.list.length := by omega
  have haddr : g.list[g.used + i]? = some g.list[g.used + i] :=
    getElem?_eq_getElem hi
  have hfirst : g.list[g.used]? = some g.list[g.used] :=
    getElem?_eq_getElem hused
  unfold Generator.pickAndSwap
  rw [haddr, hfirst]
  refine ⟨_, _, rfl, ?_, rfl, by simp, rfl⟩
  refine ⟨by simpa using hused, (set_set_perm hi hused).trans h.perm, ?_,
    attempts_chain h fun _ => hfamily, ?_⟩
  · -- the part that was tried stays, and the address is put behind it
    rw [map_append, h.tried, map_singleton, take_add_one,
      getElem?_set_self (by simpa using hused), toList_some,
      take_set_of_le le_rfl, take_set_of_le (Nat.le_add_right _ _)]
  · intro a ha
    rw [getLast?_append, getLast?_singleton] at ha
    cases ha
    simp only [hfamily, ne_eq, Generator.preferred]
    cases g.pickV4 <;> simp

/-- If there is none, the next one is taken. -/
theorem fallback_spec (h : Log g) (hused : g.used < g.list.length)
    (hnone : ∀ a ∈ g.list.drop g.used, a.family ≠ some g.preferred) :
    NextAddress g { g with
      used := g.used + 1
      attempts := g.attempts ++ [⟨g.list[g.used], g.list.drop g.used⟩] } := by
  refine ⟨⟨hused, h.perm, ?_, attempts_chain h fun hmixed => ?_, ?_⟩, rfl,
    rfl, rfl⟩
  · simp only [map_append, h.tried, map_cons, map_nil]
    rw [take_add_one, getElem?_eq_getElem hused, toList_some]
  · obtain ⟨a, ha, hfamily⟩ := hmixed g.preferred
    exact absurd hfamily (hnone a ha)
  · intro a ha
    rw [getLast?_append] at ha
    cases ha
    refine hnone _ ?_
    rw [drop_eq_getElem_cons hused]
    exact mem_cons_self

/-- There is a next address unless all have been tried. -/
theorem nextServerAddress_spec (h : Log g) (hused : g.used < g.list.length) :
    ∃ a g', g.nextServerAddress = some (a, g') ∧ NextAddress g g' := by
  unfold Generator.nextServerAddress
  cases hfind : (g.list.drop g.used).findIdx? (fun a =>
    decide (a.family = some g.preferred)) with
  | some i =>
    obtain ⟨hlt, hfamily, -⟩ := findIdx?_eq_some_iff_getElem.1 hfind
    rw [length_drop] at hlt
    exact pickAndSwap_spec h (by omega) (by simpa using hfamily)
  | none =>
    rw [findIdx?_eq_none_iff] at hfind
    simp only [getElem?_eq_getElem hused]
    refine ⟨_, _, rfl, fallback_spec h hused fun a ha => ?_⟩
    simpa using hfind a ha

theorem nextServerAddress_none (hused : g.used = g.list.length) :
    g.nextServerAddress = none := by
  have hdrop : g.list.drop g.used = [] := by rw [hused, drop_length]
  unfold Generator.nextServerAddress
  rw [hdrop, hused, getElem?_length]
  rfl

-- ==== the phases

/-- How many lookups are complete. -/
def Generator.completed (g : Generator) : Nat :=
  (!g.getaddrV4).toNat + (!g.getaddrV6).toNat

/-- No response has been sent. -/
structure Open (g : Generator) : Prop where
  log : Log g
  responses : g.responses = []
  timeoutLinked : g.timeoutLinked = true
  timeoutCb : g.timeoutCb = .connect
  length_le : g.list.length ≤ maxAddressesPerFamily * g.completed

/-- A response has been sent. -/
structure Finished (g : Generator) : Prop where
  log : Log g
  responses : g.responses.length = 1
  getaddrV4 : g.getaddrV4 = false
  getaddrV6 : g.getaddrV6 = false
  delay : g.delayLinked = false
  connecting : g.connecting = []
  timeout : g.timeoutLinked = true → g.timeoutCb = .io

/-- All that has been stored has been tried without success. -/
structure Waiting (g : Generator) : Prop where
  sock : g.sock = none
  connecting : g.connecting = []
  used : g.used = g.list.length
  pending : g.getaddrV4 = true ∨ g.getaddrV6 = true
  failed : g.list ≠ [] → g.lastClass = .connect
  delay : g.delayLinked = true → g.delayCb = some .attempt ∧ g.list ≠ []

/-- Addresses of IPv4 are held back. -/
structure Resolving (g : Generator) : Prop where
  sock : g.sock = none
  connecting : g.connecting = []
  used : g.used = 0
  list : g.list ≠ []
  getaddrV4 : g.getaddrV4 = false
  getaddrV6 : g.getaddrV6 = true
  delayLinked : g.delayLinked = true
  delayCb : g.delayCb = some .resolution

/-- An attempt is under way. -/
structure Connecting (g : Generator) (id : Nat) : Prop where
  sock : g.sock = some id
  connecting : g.connecting = [id]
  list : g.list ≠ []
  delay : g.delayLinked = true → g.delayCb = some .attempt

def Phase (g : Generator) : Prop :=
  Waiting g ∨ Resolving g ∨ ∃ id, Connecting g id

def Inv (g : Generator) : Prop := Finished g ∨ Open g ∧ Phase g

/-- Where `try_connect` may be called. -/
structure Ready (g : Generator) : Prop where
  sock : g.sock = none
  connecting : g.connecting = []
  delay : g.delayLinked = true → g.delayCb = some .attempt ∧ g.list ≠ [] ∧
    g.used = g.list.length
  failed : g.used = g.list.length → g.list ≠ [] → g.lastClass = .connect
  pending : g.list = [] → g.getaddrV4 = true ∨ g.getaddrV6 = true

/-- Nothing has been tried yet. -/
theorem Ready.first (hsock : g.sock = none) (hconnecting : g.connecting = [])
    (hdelay : g.delayLinked = false) (hused : g.used = 0)
    (hpending : g.list = [] → g.getaddrV4 = true ∨ g.getaddrV6 = true) :
    Ready g := by
  refine ⟨hsock, hconnecting, fun hl => absurd hl (Bool.eq_false_iff.1 hdelay),
    fun heq hne => ?_, hpending⟩
  exact absurd (eq_nil_of_length_eq_zero (heq.symm.trans hused)) hne

/-- `Open` does not depend on the socket, the timer of the attempts and the
last error. -/
theorem Open.update {sock : Option Nat} {connecting : List Nat}
    {delayLinked : Bool} {delayCb : Option DelayCb} {lastClass : ErrorClass}
    {lastStr : Option ErrorString} (h : Open g) :
    Open { g with
      sock := sock, connecting := connecting, delayLinked := delayLinked
      delayCb := delayCb, lastClass := lastClass, lastStr := lastStr } :=
  { h with log := { h.log with } }

-- ==== an error

/-- After an error was sent nothing more is. -/
theorem sendConnectError_finished {code : Nat} {msg : String}
    {errstr : Option ErrorString} {record : ErrorRecord} (h : Log g)
    (hresponses : g.responses = [])
    (hdelay : g.delayLinked = true → g.delayCb ≠ none)
    (hconnecting : g.connecting = g.sock.toList ∨ g.connecting = []) :
    Finished (g.sendConnectError code msg errstr record) := by
  refine ⟨{ h with }, ?_, rfl, rfl, ?_, ?_, ?_⟩
  · simp [Generator.sendConnectError, Generator.stopEyeballs, hresponses]
  · simp only [Generator.sendConnectError, Generator.stopEyeballs]
    cases hlinked : g.delayLinked with
    | false => rfl
    | true =>
      cases hcb : g.delayCb with
      | none => exact absurd hcb (hdelay hlinked)
      | some cb => rfl
  · simp only [Generator.sendConnectError, Generator.stopEyeballs]
    cases hsock : g.sock with
    | none => simpa [hsock] using hconnecting
    | some id =>
      rcases hconnecting with hone | hnil
      · simp [hone, hsock]
      · simp [hnil]
  · intro hlinked
    cases hlinked

theorem setLastError_cases (cls : ErrorClass) (str : ErrorString) :
    ∃ cls' str', g.setLastError cls str =
      { g with lastClass := cls', lastStr := str' } ∧
      (g.lastClass = .connect → cls' = .connect) := by
  unfold Generator.setLastError
  split
  · rename_i hrank
    refine ⟨cls, some str, rfl, fun hconnect => ?_⟩
    rw [hconnect] at hrank
    cases cls with
    | nameResolution => exact absurd hrank (by decide)
    | accessProhibited => exact absurd hrank (by decide)
    | connect => rfl
  · exact ⟨g.lastClass, g.lastStr, rfl, id⟩

theorem setLastError_connect (str : ErrorString) :
    g.setLastError .connect str =
      { g with lastClass := .connect, lastStr := some str } := by
  unfold Generator.setLastError
  rw [if_pos (by cases g.lastClass <;> decide)]

-- ==== try_connect

/-- An attempt is under way. -/
theorem tcpStartConnect_spec (h : Open g) (hlist : g.list ≠ [])
    (hconnecting : g.connecting = []) (hdelay : g.delayLinked = false) :
    Yields Inv g.tcpStartConnect := by
  unfold Generator.tcpStartConnect Generator.linkDelay
  simp only [hdelay, Bool.false_eq_true]
  refine .ok (.inr ⟨h.update,
    .inr (.inr ⟨g.used, rfl, ?_, hlist, fun _ => rfl⟩)⟩)
  simp [hconnecting]

theorem udpConnect_finished (h : Open g) (hconnecting : g.connecting = [])
    (hdelay : g.delayLinked = false) : Finished (g.udpConnect cfg) where
  log := { h.log with }
  responses := by simp [Generator.udpConnect, h.responses]
  getaddrV4 := rfl
  getaddrV6 := rfl
  delay := by simp [Generator.udpConnect, Generator.stopEyeballs, hdelay]
  connecting := hconnecting
  timeout := fun _ => rfl

theorem NextAddress.open (h : Open g) (hnext : NextAddress g g') :
    Open g' := by
  have hle : g'.list.length ≤ maxAddressesPerFamily * g.completed :=
    hnext.length ▸ h.length_le
  have hlog := hnext.log
  rw [hnext.rest] at hlog ⊢
  exact { h with log := hlog, length_le := hle }

/-- Addresses that are denied are skipped. -/
theorem tryConnectLoop_spec (rounds : Nat) (h : Open g) (hready : Ready g)
    (hrounds : g.list.length - g.used < rounds) :
    Yields Inv (g.tryConnectLoop cfg rounds) := by
  induction rounds generalizing g with
  | zero => exact absurd hrounds (Nat.not_lt_zero _)
  | succ rounds ih =>
    rw [Generator.tryConnectLoop]
    by_cases hused : g.used = g.list.length
    · rw [nextServerAddress_none hused]
      by_cases hpending : g.getaddrV4 = true ∨ g.getaddrV6 = true
      · rw [if_pos hpending]
        exact .ok (.inr ⟨h, .inl ⟨hready.sock, hready.connecting, hused,
          hpending, hready.failed hused,
          fun hlinked => ⟨(hready.delay hlinked).1,
            (hready.delay hlinked).2.1⟩⟩⟩)
      · have hlist : g.list ≠ [] := fun hnil => hpending (hready.pending hnil)
        rw [if_neg hpending, if_neg (not_not.2 (hready.failed hused hlist))]
        exact .ok (.inl (sendConnectError_finished h.log h.responses
          (fun hlinked => by simp [(hready.delay hlinked).1])
          (.inr hready.connecting)))
    · have hlt : g.used < g.list.length := lt_of_le_of_ne h.log.used_le hused
      obtain ⟨a, g₁, hg₁, hnext⟩ := nextServerAddress_spec h.log hlt
      have hdelay : g.delayLinked = false :=
        Bool.eq_false_iff.2 fun hlinked => hused (hready.delay hlinked).2.2
      have hopen := hnext.open h
      have hlist : g₁.list ≠ [] := by
        apply ne_nil_of_length_pos
        rw [hnext.length]
        omega
      obtain ⟨hsock₁, hconnecting₁, hdelay₁⟩ :
          g₁.sock = none ∧ g₁.connecting = [] ∧ g₁.delayLinked = false := by
        rw [hnext.rest]
        exact ⟨hready.sock, hready.connecting, hdelay⟩
      rw [hg₁]
      simp only
      cases cfg.connect g₁.used with
      | none =>
        simp only
        split
        · exact tcpStartConnect_spec hopen hlist hconnecting₁ hdelay₁
        · exact .ok (.inl (udpConnect_finished hopen hconnecting₁ hdelay₁))
      | some err =>
        simp only [setLastError_connect]
        refine ih hopen.update ⟨hsock₁, hconnecting₁, fun hlinked => ?_,
          fun _ _ => rfl, fun hnil => absurd hnil hlist⟩ ?_
        · exact absurd hlinked (Bool.eq_false_iff.1 hdelay₁)
        · rw [hnext.length, hnext.used]
          omega

theorem tryConnect_spec (h : Open g) (hready : Ready g) :
    Yields Inv (g.tryConnect cfg) :=
  tryConnectLoop_spec _ h hready (Nat.lt_succ_self _)

-- ==== lookups

/-- Up to as many addresses as are wanted of a family are added. -/
theorem storeServerAddresses_spec {acl : List AclEntry} {list : List SockAddr}
    {numAdded : Nat} (res : List SockAddr)
    (hadded : numAdded < maxAddressesPerFamily)
    (hlist : list.length ≤ maxAddressesPerFamily + numAdded) :
    ∃ extra n, storeServerAddresses acl list numAdded res =
      .ok (list ++ extra, n) ∧
      n = numAdded + extra.length ∧ n ≤ maxAddressesPerFamily ∧
      ∀ a ∈ extra, a ∈ res ∧ lookupAcl acl a = true := by
  induction res generalizing list numAdded with
  | nil =>
    refine ⟨[], numAdded, ?_, rfl, hadded.le, fun a ha => by cases ha⟩
    rw [storeServerAddresses, append_nil]
  | cons addr rest ih =>
    rw [storeServerAddresses, if_neg (by omega)]
    cases hacl : lookupAcl acl addr with
    | false =>
      simp only [Bool.false_eq_true, if_false, if_pos hadded]
      obtain ⟨extra, n, hstore, hn, hle, hextra⟩ := ih hadded hlist
      exact ⟨extra, n, hstore, hn, hle, fun a ha =>
        ⟨mem_cons_of_mem _ (hextra a ha).1, (hextra a ha).2⟩⟩
    | true =>
      simp only [if_true]
      by_cases hmore : numAdded + 1 < maxAddressesPerFamily
      · rw [if_pos hmore]
        obtain ⟨extra, n, hstore, hn, hle, hextra⟩ :=
          @ih (list ++ [addr]) (numAdded + 1) hmore
          (by rw [length_append, length_singleton]; omega)
        refine ⟨addr :: extra, n, ?_, ?_, hle, ?_⟩
        · rw [hstore, append_assoc, singleton_append]
        · rw [length_cons]
          omega
        · intro a ha
          rcases mem_cons.1 ha with rfl | hmem
          · exact ⟨mem_cons_self, hacl⟩
          · exact ⟨mem_cons_of_mem _ (hextra a hmem).1, (hextra a hmem).2⟩
      · rw [if_neg hmore]
        refine ⟨[addr], numAdded + 1, rfl, rfl, by omega, ?_⟩
        intro a ha
        obtain rfl := mem_singleton.1 ha
        exact ⟨mem_cons_self, hacl⟩

/-- The lookup gives no address that the ACL lets through. -/
def Lookup.Barren (acl : List AclEntry) : Lookup → Prop
  | .addresses first rest => ∀ a ∈ first :: rest, lookupAcl acl a = false
  | .error _ => True

instance (acl : List AclEntry) (res : Lookup) : Decidable (res.Barren acl) :=
  match res with
  | .addresses first rest =>
    inferInstanceAs (Decidable (∀ a ∈ first :: rest, lookupAcl acl a = false))
  | .error _ => .isTrue trivial

/-- A lookup changes what is stored, and the last error. -/
theorem storeLookup_spec (res : Lookup)
    (hlist : g.list.length ≤ maxAddressesPerFamily) :
    ∃ extra cls str, g.storeLookup cfg res = .ok { g with
          list := g.list ++ extra, stored := g.stored ++ extra
          lastClass := cls, lastStr := str } ∧
      extra.length ≤ maxAddressesPerFamily ∧
        (g.lastClass = .connect → cls = .connect) ∧
      (res.Barren cfg.acl → extra = []) := by
  cases res with
  | error errstr =>
    obtain ⟨cls, str, heq, hfailed⟩ :=
      @setLastError_cases g .nameResolution errstr
    refine ⟨[], cls, str, ?_, Nat.zero_le _, hfailed, fun _ => rfl⟩
    simp only [Generator.storeLookup, heq, append_nil]
  | addresses first rest =>
    obtain ⟨extra, n, hstore, hn, hle, hextra⟩ :=
      @storeServerAddresses_spec cfg.acl g.list 0 (first :: rest)
        (by decide) hlist
    have hbarren : Lookup.Barren cfg.acl (.addresses first rest) →
        extra = [] := by
      intro hbarren
      rw [eq_nil_iff_forall_not_mem]
      intro a ha
      have hfalse := hbarren a (hextra a ha).1
      rw [(hextra a ha).2] at hfalse
      cases hfalse
    simp only [Generator.storeLookup, hstore, Except.map, drop_left]
    split
    · obtain ⟨cls, str, heq, hfailed⟩ := @setLastError_cases
        { g with list := g.list ++ extra, stored := g.stored ++ extra }
        .accessProhibited
        (.other "destination_ip_prohibited")
      exact ⟨extra, cls, str, congrArg _ heq, by omega, hfailed, hbarren⟩
    · exact ⟨extra, g.lastClass, g.lastStr, rfl, by omega, id, hbarren⟩

/-- What `on_getaddr` starts from. -/
theorem Open.stored {v4 v6 : Bool} {cls : ErrorClass}
    {str : Option ErrorString} (h : Open g)
    (hextra : extra.length ≤ maxAddressesPerFamily)
    (hcompleted : (!v4).toNat + (!v6).toNat = g.completed + 1) :
    Open { g with
      getaddrV4 := v4, getaddrV6 := v6, list := g.list ++ extra
      stored := g.stored ++ extra, lastClass := cls, lastStr := str } := by
  refine { h with
    log := { h.log with
      used_le := ?_, perm := h.log.perm.append_right extra, tried := ?_ }
    length_le := ?_ }
  · exact h.log.used_le.trans (by simp)
  · simp only [take_append_of_le_length h.log.used_le]
    exact h.log.tried
  · have hlen := h.length_le
    show (g.list ++ extra).length ≤
      maxAddressesPerFamily * ((!v4).toNat + (!v6).toNat)
    rw [hcompleted, length_append, Nat.mul_succ]
    omega

/-- The attempt that is under way gives way to the next. -/
theorem closeSock_tryConnect (h : Open g) (hconnecting : Connecting g id)
    (hdelay : g.delayLinked = false) (hused : g.used ≠ g.list.length) :
    Yields Inv (g.closeSock.bind fun g => g.tryConnect cfg) := by
  have hclose : g.closeSock =
      .ok { g with sock := none, connecting := [] } := by
    rw [Generator.closeSock, hconnecting.sock, hconnecting.connecting]
    simp
  rw [hclose]
  exact tryConnect_spec h.update ⟨rfl, rfl,
    fun hlinked => absurd hlinked (Bool.eq_false_iff.1 hdelay),
    fun heq => absurd heq hused, fun hnil => absurd hnil hconnecting.list⟩

/-- The attempt in progress, if any, goes on. -/
theorem continueConnect_spec (h : Open g)
    (hphase : Ready g ∨ ∃ id, Connecting g id) :
    Yields Inv (g.continueConnect cfg) := by
  unfold Generator.continueConnect
  rcases hphase with hready | ⟨id, hconnecting⟩
  · rw [hready.sock]
    exact tryConnect_spec h hready
  have hsame : Inv g := .inr ⟨h, .inr (.inr ⟨id, hconnecting⟩)⟩
  rw [hconnecting.sock]
  simp only
  split
  · exact .ok hsame
  · rename_i hdelay
    split
    · exact .ok hsame
    · exact closeSock_tryConnect h hconnecting (by simpa using hdelay) ‹_›

theorem sendLookupError_finished (h : Open g)
    (hdelay : g.delayLinked = true → g.delayCb ≠ none)
    (hconnecting : g.connecting = []) : Finished g.sendLookupError := by
  unfold Generator.sendLookupError Generator.onConnectError
  split
  · exact sendConnectError_finished h.log h.responses hdelay (.inr hconnecting)
  · exact sendConnectError_finished h.log h.responses hdelay (.inr hconnecting)

theorem unlinkResolution_eq (hdelay : g.delayLinked = true →
    g.delayCb = some .attempt) :
    g.unlinkResolution = .ok g := by
  unfold Generator.unlinkResolution
  rw [if_neg]
  rintro ⟨hlinked, hcb⟩
  rw [hdelay hlinked] at hcb
  cases hcb

section

variable {cls : ErrorClass} {str : Option ErrorString} {stored : List SockAddr}

/-- The second of the two lookups. -/
theorem afterLookup_second (hphase : Phase g)
    (hfailed : g.lastClass = .connect → cls = .connect)
    (hlate : g.sock = none → g.delayLinked = true → g.delayCb = some .attempt →
      extra = [])
    (heq : g' = { g with
      getaddrV4 := false, getaddrV6 := false, list := g.list ++ extra
      stored := stored, lastClass := cls, lastStr := str }) (h : Open g') :
    Yields Inv (g'.afterLookup cfg) := by
  subst heq
  unfold Generator.afterLookup
  rw [if_neg Bool.false_ne_true, if_neg Bool.false_ne_true]
  rcases hphase with hwaiting | hresolving | ⟨id, hunder⟩
  · rw [unlinkResolution_eq (by exact fun hl => (hwaiting.delay hl).1)]
    simp only [Except.bind]
    by_cases hnil : g.list ++ extra = []
    · rw [if_pos hnil]
      exact .ok (.inl (sendLookupError_finished h
        (fun hl => by simp [(hwaiting.delay hl).1])
        hwaiting.connecting))
    rw [if_neg hnil]
    refine continueConnect_spec h (.inl ⟨hwaiting.sock, hwaiting.connecting,
      fun hl => ?_,
      fun heq _ => hfailed (hwaiting.failed fun hlist => ?_), fun h =>
        absurd h hnil⟩)
    · -- the timer of an attempt that failed is still linked
      have hcb := (hwaiting.delay hl).1
      refine ⟨hcb, hnil, ?_⟩
      simp only [hlate hwaiting.sock hl hcb, append_nil]
      exact hwaiting.used
    · simp only [hwaiting.used, hlist, length_nil] at heq hnil
      exact hnil (eq_nil_of_length_eq_zero heq.symm)
  · have hne : g.list ++ extra ≠ [] :=
      append_ne_nil_of_left_ne_nil hresolving.list _
    unfold Generator.unlinkResolution
    rw [if_pos ⟨hresolving.delayLinked, hresolving.delayCb⟩,
      if_neg (not_not.2 hresolving.used)]
    simp only [Except.bind, if_neg hne]
    exact continueConnect_spec h.update
      (.inl (.first hresolving.sock hresolving.connecting rfl
      hresolving.used fun hnil => absurd hnil hne))
  · have hne : g.list ++ extra ≠ [] :=
      append_ne_nil_of_left_ne_nil hunder.list _
    rw [unlinkResolution_eq (by exact hunder.delay)]
    simp only [Except.bind, if_neg hne]
    exact continueConnect_spec h (.inr ⟨id, hunder.sock, hunder.connecting,
      hne, hunder.delay⟩)

/-- The first of the two lookups: nothing has been stored before. -/
theorem afterLookup_first (hphase : Phase g) (hlist : g.list = [])
    (hused : g.used = 0) (hv4 : g.getaddrV4 = true) (hv6 : g.getaddrV6 = true)
    (heq : g' = { g.complete family with
      list := g.list ++ extra, stored := stored
      lastClass := cls, lastStr := str })
    (h : Open g') : Yields Inv (g'.afterLookup cfg) := by
  obtain hwaiting | hresolving | ⟨id, hunder⟩ := hphase
  case inr.inl => exact absurd hlist hresolving.list
  case inr.inr => exact absurd hlist hunder.list
  have hdelay : g.delayLinked = false := Bool.eq_false_iff.2 fun hl =>
    (hwaiting.delay hl).2 hlist
  obtain ⟨hused', hsock', hconnecting', hdelay'⟩ : g'.used = 0 ∧
      g'.sock = none ∧
      g'.connecting = [] ∧ g'.delayLinked = false := by
    rw [heq]
    cases family <;> exact ⟨hused, hwaiting.sock, hwaiting.connecting, hdelay⟩
  unfold Generator.afterLookup
  cases family with
  | v4 =>
    have hv4' : g'.getaddrV4 = false := by rw [heq]; rfl
    have hv6' : g'.getaddrV6 = true := by rw [heq]; exact hv6
    rw [hv4', if_neg Bool.false_ne_true, if_pos hv6',
      if_neg (not_not.2 hused')]
    split
    · unfold Generator.linkDelay
      rw [hdelay', if_neg Bool.false_ne_true]
      exact .ok (.inr ⟨h.update,
        .inr (.inl ⟨hsock', hconnecting', hused', ‹_›, hv4', hv6', rfl, rfl⟩)⟩)
    · rename_i hne
      have hnil : g'.list = [] := not_not.1 hne
      exact .ok (.inr ⟨h,
        .inl ⟨hsock', hconnecting', by rw [hused', hnil]; rfl, .inr hv6',
        fun hl => absurd hnil hl, fun hl =>
          absurd hl (Bool.eq_false_iff.1 hdelay')⟩⟩)
  | v6 =>
    have hv4' : g'.getaddrV4 = true := by rw [heq]; exact hv4
    rw [if_pos hv4']
    exact continueConnect_spec h
      (.inl (.first hsock' hconnecting' hdelay' hused'
      fun _ => .inl hv4'))

end

/-- A lookup returns, the first or the second. -/
theorem onGetaddr_spec {res : Lookup} (h : Open g) (hphase : Phase g)
    (hpending : g.pending family = true)
    (hlate : g.sock = none → g.delayLinked = true →
      g.delayCb = some .attempt → res.Barren cfg.acl) :
    Yields Inv (g.onGetaddr cfg family res) := by
  have hlen := h.length_le
  have hlist : (g.complete family).list = g.list := by cases family <;> rfl
  unfold Generator.onGetaddr
  by_cases hboth : g.getaddrV4 = true ∧ g.getaddrV6 = true
  · have hzero : g.completed = 0 := by
      simp [Generator.completed, hboth.1, hboth.2]
    rw [hzero, Nat.mul_zero, Nat.le_zero] at hlen
    have hnil := eq_nil_of_length_eq_zero hlen
    have hused : g.used = 0 := Nat.le_zero.1 (hlen ▸ h.log.used_le)
    obtain ⟨extra, cls, str, heq, hextra, -⟩ := @storeLookup_spec cfg
      (g.complete family) res (by rw [hlist, hlen]; exact Nat.zero_le _)
    rw [heq]
    refine afterLookup_first hphase hnil hused hboth.1 hboth.2
      (by rw [hlist]) ?_
    cases family <;> exact h.stored hextra
      (by simp [hzero, hboth, Generator.complete])
  · obtain ⟨hcomplete, hone⟩ : g.complete family =
        { g with getaddrV4 := false, getaddrV6 := false } ∧
        g.completed = 1 := by
      cases family with
      | v4 =>
        simp only [Generator.pending] at hpending
        simp only [hpending, true_and, Bool.not_eq_true] at hboth
        simp [Generator.complete, Generator.completed, hpending, hboth]
      | v6 =>
        simp only [Generator.pending] at hpending
        simp only [hpending, and_true, Bool.not_eq_true] at hboth
        simp [Generator.complete, Generator.completed, hpending, hboth]
    rw [hone, Nat.mul_one] at hlen
    obtain ⟨extra, cls, str, heq, hextra, hfailed, hbarren⟩ :=
      @storeLookup_spec cfg
      (g.complete family) res (hlist ▸ hlen)
    rw [heq]
    rw [hcomplete] at hfailed ⊢
    exact afterLookup_second hphase hfailed
      (fun hsock hlinked hcb => hbarren (hlate hsock hlinked hcb)) rfl
      (h.stored hextra (by rw [hone]; rfl))

-- ==== the steps

/-- The next attempt does not begin before the timer of the last one has
expired: when an attempt fails before, no address is left, and no lookup gives
one. -/
def Late (cfg : Config) (g : Generator) : Event → Prop
  | .connected _ (some _) => g.delayLinked = true → g.used = g.list.length
  | .getaddr _ res => g.sock = none → g.delayLinked = true →
      g.delayCb = some .attempt → res.Barren cfg.acl
  | .connected _ none | .delay | .timeout => True

instance (cfg : Config) (g : Generator) (e : Event) :
    Decidable (Late cfg g e) :=
  match e with
  | .connected _ (some _) =>
    inferInstanceAs (Decidable (g.delayLinked = true → _ = _))
  | .getaddr _ res =>
    inferInstanceAs (Decidable (g.sock = none → g.delayLinked = true →
      g.delayCb = some .attempt → res.Barren cfg.acl))
  | .connected _ none | .delay | .timeout => .isTrue trivial

theorem Phase.connecting_eq (h : Phase g) : g.connecting = g.sock.toList := by
  rcases h with hwaiting | hresolving | ⟨id, hunder⟩
  · rw [hwaiting.sock, hwaiting.connecting]
    rfl
  · rw [hresolving.sock, hresolving.connecting]
    rfl
  · rw [hunder.sock, hunder.connecting]
    rfl

theorem Phase.delayCb (h : Phase g) (hlinked : g.delayLinked = true) :
    g.delayCb ≠ none := by
  rcases h with hwaiting | hresolving | ⟨id, hunder⟩
  · simp [(hwaiting.delay hlinked).1]
  · simp [hresolving.delayCb]
  · simp [hunder.delay hlinked]

/-- An attempt ends: it is answered, or the next one is made. -/
theorem tcpOnConnect_spec {err : Option ErrorString} (h : Open g)
    (hunder : Connecting g id)
    (hlate : ∀ e, err = some e → g.delayLinked = true →
      g.used = g.list.length) :
    Yields Inv (Generator.tcpOnConnect cfg
      { g with connecting := g.connecting.erase id } id err) := by
  unfold Generator.tcpOnConnect
  rw [if_neg (not_not.2 hunder.sock)]
  cases err with
  | none =>
    refine .ok (.inl ⟨{ h.log with }, ?_, rfl, rfl, ?_, ?_, fun _ => rfl⟩)
    · simp [h.responses]
    · simp only [Generator.stopEyeballs]
      cases hlinked : g.delayLinked with
      | false => rfl
      | true =>
        rw [hunder.delay hlinked]
        rfl
    · simp [Generator.stopEyeballs, hunder.connecting]
  | some err =>
    simp only [setLastError_connect]
    unfold Generator.closeSock
    simp only [hunder.sock, hunder.connecting, erase_cons_head, erase_nil]
    exact tryConnect_spec h.update ⟨rfl, rfl,
      fun hlinked => ⟨hunder.delay hlinked, hunder.list,
        hlate err rfl hlinked⟩, fun _ _ => rfl,
        fun hnil => absurd hnil hunder.list⟩

theorem onDelay_attempt (hcb : g.delayCb = some .attempt) : g.onDelay cfg =
      if g.used = g.list.length then .ok g
      else g.closeSock.bind fun g => g.tryConnect cfg := by
  unfold Generator.onDelay
  rw [hcb]

/-- The timer fires: the next attempt. -/
theorem onDelay_spec (h : Open g) (hphase : Phase g)
    (hlinked : g.delayLinked = true) :
    Yields Inv (Generator.onDelay cfg { g with delayLinked := false }) := by
  rcases hphase with hwaiting | hresolving | ⟨id, hunder⟩
  · -- the attempt has failed already
    rw [onDelay_attempt (g := { g with delayLinked := false })
      (hwaiting.delay hlinked).1, if_pos hwaiting.used]
    exact .ok (.inr ⟨h.update,
      .inl { hwaiting with delay := fun hl => by cases hl }⟩)
  · unfold Generator.onDelay
    rw [hresolving.delayCb]
    rw [if_neg (not_not.2 hresolving.used)]
    exact tryConnect_spec h.update
      (.first hresolving.sock hresolving.connecting rfl
      hresolving.used fun hnil => absurd hnil hresolving.list)
  · have hunder' : Connecting { g with delayLinked := false } id :=
      { hunder with delay := fun hl => by cases hl }
    rw [onDelay_attempt (g := { g with delayLinked := false })
      (hunder.delay hlinked)]
    split
    · exact .ok (.inr ⟨h.update, .inr (.inr ⟨id, hunder'⟩)⟩)
    · exact closeSock_tryConnect h.update hunder' rfl ‹_›

theorem onConnectTimeout_finished (h : Open g) (hphase : Phase g) :
    Finished ({ g with
      timeoutLinked := false } : Generator).onConnectTimeout :=
  sendConnectError_finished { h.log with } h.responses hphase.delayCb
    (.inl hphase.connecting_eq)

/-- Events that come later find nothing to do. -/
theorem Finished.step (h : Finished g) (e : Event) : g.step cfg e = .ok g := by
  cases e with
  | getaddr family res =>
    have hpending : g.pending family = false := by
      cases family with
      | v4 => exact h.getaddrV4
      | v6 => exact h.getaddrV6
    simp only [Generator.step, hpending, Bool.false_eq_true, if_false]
  | connected id err => simp [Generator.step, h.connecting]
  | delay => simp [Generator.step, h.delay]
  | timeout =>
    simp only [Generator.step]
    rw [if_neg]
    rintro ⟨hlinked, hcb⟩
    rw [h.timeout hlinked] at hcb
    cases hcb

/-- What each event keeps. -/
theorem step_inv (e : Event) (h : Inv g) (hlate : Late cfg g e) :
    Yields Inv (g.step cfg e) := by
  rcases h with hfinished | ⟨hopen, hphase⟩
  · exact ⟨g, hfinished.step e, .inl hfinished⟩
  have hsame : Inv g := .inr ⟨hopen, hphase⟩
  cases e with
  | getaddr family res =>
    exact .ite (fun hpending => onGetaddr_spec hopen hphase hpending hlate)
      fun _ => .ok hsame
  | connected id err =>
    refine .ite (fun hid => ?_) fun _ => .ok hsame
    rw [hphase.connecting_eq] at hid
    rcases hphase with hwaiting | hresolving | ⟨id', hunder⟩
    · simp [hwaiting.sock] at hid
    · simp [hresolving.sock] at hid
    · rw [hunder.sock] at hid
      obtain rfl : id = id' := by simpa using hid
      refine tcpOnConnect_spec hopen hunder ?_
      rintro e rfl
      exact hlate
  | delay => exact .ite (onDelay_spec hopen hphase) fun _ => .ok hsame
  | timeout =>
    simp only [Generator.step]
    rw [if_pos ⟨hopen.timeoutLinked, hopen.timeoutCb⟩]
    exact .ok (.inl (onConnectTimeout_finished hopen hphase))

theorem init_inv : Inv Generator.init := by
  refine .inr ⟨⟨⟨le_rfl, .nil, rfl, .nil, ?_⟩, rfl, rfl, rfl, le_rfl⟩,
    .inl ⟨rfl, rfl, rfl, .inl rfl, fun h => absurd rfl h, fun h => ?_⟩⟩
  · intro a ha
    cases ha
  · cases h

theorem Inv.log (h : Inv g) : Log g := by
  rcases h with hfinished | ⟨hopen, -⟩
  · exact hfinished.log
  · exact hopen.log

theorem Inv.connecting_le (h : Inv g) : g.connecting.length ≤ 1 := by
  rcases h with hfinished | ⟨-, hphase⟩
  · rw [hfinished.connecting]
    exact Nat.zero_le _
  · rw [hphase.connecting_eq]
    cases g.sock with
    | none => exact Nat.zero_le _
    | some id => exact le_rfl

theorem Inv.responses_le (h : Inv g) : g.responses.length ≤ 1 := by
  rcases h with hfinished | ⟨hopen, -⟩
  · exact hfinished.responses.le
  · rw [hopen.responses]
    exact Nat.zero_le _

/-- The connect timeout sends one at the latest. -/
theorem Inv.timeout (h : Inv g) :
    ∃ g', g.step cfg .timeout = .ok g' ∧ g'.responses.length = 1 := by
  rcases h with hfinished | ⟨hopen, hphase⟩
  · exact ⟨g, hfinished.step _, hfinished.responses⟩
  · simp only [Generator.step]
    rw [if_pos ⟨hopen.timeoutLinked, hopen.timeoutCb⟩]
    exact ⟨_, rfl, (onConnectTimeout_finished hopen hphase).responses⟩

theorem Log.subperm (h : Log g) :
    (g.attempts.map Attempt.addr).Subperm g.stored := by
  rw [h.tried]
  exact (take_sublist _ _).subperm.trans h.perm.subperm

/-- In every run whose attempts are `Late`: no assertion fires and no timer is
linked twice; one attempt is open at most; what is stored is tried once at
most, and the families alternate; and one response is sent, when nothing is
going on any more or the connect timeout expires. -/
theorem eyeballs_run (cfg : Config) (es : List Event)
    (hlate : Meets (Generator.step cfg) (Late cfg) .init es) :
    ∃ g, es.foldlM (Generator.step cfg) .init = .ok g ∧
      g.connecting.length ≤ 1 ∧
        (g.attempts.map Attempt.addr).Subperm g.stored ∧
      g.attempts.IsChain Alternates ∧
      g.responses.length ≤ 1 ∧
      (g.getaddrV4 = false → g.getaddrV6 = false → g.connecting = [] →
        g.responses.length = 1) ∧
      ∃ g', g.step cfg .timeout = .ok g' ∧ g'.responses.length = 1 := by
  obtain ⟨g, hg, hinv⟩ :=
    run_of_meets (fun g e => @step_inv cfg g e) init_inv hlate
  refine ⟨g, hg, hinv.connecting_le, hinv.log.subperm, hinv.log.chain,
    hinv.responses_le, fun hv4 hv6 hconnecting => ?_, hinv.timeout⟩
  rcases hinv with hfinished | ⟨-, hwaiting | hresolving | ⟨id, hunder⟩⟩
  · exact hfinished.responses
  · have hpending := hwaiting.pending
    simp [hv4, hv6] at hpending
  · rw [hresolving.getaddrV6] at hv6
    cases hv6
  · rw [hunder.connecting] at hconnecting
    cases hconnecting

def anyAddress : List AclEntry := [⟨true, .any, 0, 0⟩]

def tcpConfig : Config := ⟨anyAddress, true, false, fun _ => none⟩

/-- Addresses of IPv4 first; the first two attempts take too long, and the last
one succeeds. -/
def lateRun : List Event :=
  [.getaddr .v4 (.addresses (.v4 0x7f000001 80) [.v4 0x7f000002 80]), .delay,
   .getaddr .v6 (.addresses (.v6 (List.replicate 16 0) 80) []), .delay, .delay,
   .connected 3 none]

theorem eyeballs_run_lateRun :
    Meets (Generator.step tcpConfig) (Late tcpConfig) .init lateRun ∧
    ∃ g, lateRun.foldlM (Generator.step tcpConfig) .init = .ok g ∧
      g.connecting.length ≤ 1 ∧
        (g.attempts.map Attempt.addr).Subperm g.stored ∧
      g.attempts.IsChain Alternates ∧
      g.responses.length ≤ 1 ∧
      (g.getaddrV4 = false → g.getaddrV6 = false → g.connecting = [] →
        g.responses.length = 1) ∧
      ∃ g', g.step tcpConfig .timeout = .ok g' ∧ g'.responses.length = 1 := by
  have hlate : Meets (Generator.step tcpConfig) (Late tcpConfig)
      .init lateRun := by
    decide +kernel
  exact ⟨hlate, eyeballs_run tcpConfig lateRun hlate⟩

/-- An attempt fails before its timer expires, and there is another address, or
a lookup gives one: the timer is linked while it is linked. -/
theorem delay_linked_twice : List.foldlM (Generator.step tcpConfig) .init
      [.getaddr .v6 (.addresses (.v6 (List.replicate 16 0) 80)
        [.v6 (List.replicate 16 1) 80]),
       .connected 1 (some .socketConnRefused)] = .error .linked ∧
    List.foldlM (Generator.step tcpConfig) .init
      [.getaddr .v6 (.addresses (.v6 (List.replicate 16 0) 80) []),
       .connected 1 (some .socketConnRefused),
       .getaddr .v4 (.addresses (.v4 0x7f000001 80) [])] = .error .linked := by
  decide +kernel

end H2o.Connect
