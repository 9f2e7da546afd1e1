import PredictX.Properties.NoTrace

namespace PredictX.ConnectionManager

open PredictX.Data PredictX.MarketFeed PredictX.MarketSocket PredictX.RedisPubSub

/-! The caps on connections.

A connection is admitted by the counters, which do not yet count those that are still waiting to be
registered.  Every step is followed in what it does to the counters and to what they count, however
calls and disconnects overlap; the caps hold if those that wait are counted with the registered.
-/

/-- The address and the user that a `connect` is about to register. -/
def Call.applies : Call → Option (Option Ip × Option UserId)
  | .accepting _ ip user | .connecting _ ip user | .registering _ ip user => some (ip, user)
  | _ => none

/-- What the counters know of a socket, and what they will know of it. -/
structure Standing where
  registered : Bool
  ip : Option (Option Ip)
  user : Option (Option UserId)
  applies : Option (Option Ip × Option UserId)

def Standing.unknown : Standing := ⟨false, none, none, none⟩

def Peer.standing (peer : Peer) : Standing :=
  ⟨peer.registered, peer.ip, peer.user, peer.call.applies⟩

/-- The counters and what they count. -/
structure Census where
  known : Finset Socket
  standing : Socket → Standing
  ipConnections : Ip → ℕ
  userConnections : UserId → ℕ

def Hub.census (hub : Hub) : Census :=
  ⟨hub.known, fun socket => (hub.peers socket).standing, hub.ipConnections, hub.userConnections⟩

namespace Census

def put (census : Census) (socket : Socket) (standing : Standing) : Census :=
  { census with standing := Function.update census.standing socket standing }

def applies (census : Census) (socket : Socket) (ip : Option Ip) (user : Option UserId) : Census :=
  { census.put socket { census.standing socket with applies := some (ip, user) } with
    known := insert socket census.known }

def registers (census : Census) (socket : Socket) (ip : Option Ip) (user : Option UserId) :
    Census :=
  { census.put socket ⟨true, some ip, some user, none⟩ with
    ipConnections := tally ip census.ipConnections
    userConnections := tally user census.userConnections }

def leaves (census : Census) (socket : Socket) : Census :=
  let standing := census.standing socket
  { census.put socket { standing with registered := false, ip := none, user := none } with
    ipConnections := untally standing.ip.join census.ipConnections
    userConnections := untally standing.user.join census.userConnections }

end Census

/-- What the steps of the hub do to the counters. -/
inductive Counts (census : Census) : Action → Census → Prop
  | stays (action : Action) : Counts census action census
  | applies {socket : Socket} (market : MarketKey) (ip : Option Ip) (user : Option UserId)
      (fresh : socket ∉ census.known) :
      Counts census (.connect socket market ip user) (census.applies socket ip user)
  | registers {socket : Socket} {ip : Option Ip} {user : Option UserId}
      (applied : (census.standing socket).applies = some (ip, user)) :
      Counts census (.resume socket) (census.registers socket ip user)
  | leaves (action : Action) (socket : Socket) : Counts census action (census.leaves socket)

section Steps

variable {hub after : Hub} {socket : Socket} {action : Action}

theorem census_setPeer (hub : Hub) (socket : Socket) (peer : Peer) :
    (hub.setPeer socket peer).census = hub.census.put socket peer.standing := by
  unfold Hub.census Census.put
  congr 1
  funext other
  by_cases same : other = socket
  · simp [same]
  · simp [same]

theorem put_same {census : Census} {standing : Standing}
    (same : standing = census.standing socket) : census.put socket standing = census := by
  rw [same, Census.put, Function.update_eq_self]

/-- A socket's own maps change, but nothing that is counted. -/
theorem census_same {peer : Peer} (peers : after.peers = Function.update hub.peers socket peer)
    (known : after.known = hub.known) (ips : after.ipConnections = hub.ipConnections)
    (users : after.userConnections = hub.userConnections)
    (same : peer.standing = (hub.peers socket).standing) : after.census = hub.census := by
  have put := (census_setPeer hub socket peer).trans (put_same same)
  rw [← put]
  unfold Hub.census
  rw [peers, known, ips, users]
  rfl

theorem census_setExits {exits : List Exit} : (hub.setExits socket exits).census = hub.census :=
  census_same rfl rfl rfl rfl rfl

theorem census_startLeaving : (hub.startLeaving socket).census = hub.census :=
  census_same rfl rfl rfl rfl rfl

theorem census_releaseGrid : (hub.releaseGrid socket).census = hub.census :=
  census_same rfl rfl rfl rfl rfl

theorem census_releaseNext {before later : List Exit} {markets : List MarketKey} :
    (hub.releaseNext socket before later markets).census = hub.census := by
  cases markets with
  | nil => exact census_setExits.trans census_releaseGrid
  | cons market rest => exact census_same rfl rfl rfl rfl rfl

theorem census_clearNext {before later : List Exit} {all markets : List MarketKey} :
    (hub.clearNext socket before later all markets).census = hub.census := by
  cases markets with
  | nil => exact census_releaseNext
  | cons market rest => exact census_same rfl rfl rfl rfl rfl

theorem census_popSocket {before later : List Exit} {markets : List MarketKey} :
    (hub.popSocket socket before later markets).census = hub.census.leaves socket := by
  unfold Hub.popSocket
  rw [census_clearNext]
  show { (hub.setPeer socket
      { hub.peers socket with subscriptions := none, ip := none, user := none }).census with
    ipConnections := untally (hub.peers socket).ip.join hub.ipConnections
    userConnections := untally (hub.peers socket).user.join hub.userConnections } = _
  rw [census_setPeer]
  rfl

theorem addFresh_standing {peer : Peer} {previous accepted : Finset MarketKey}
    (applies : peer.call.applies = none) :
    (peer.addFresh previous accepted).standing = peer.standing := by
  unfold Peer.addFresh
  split <;> simp only [Peer.standing, applies] <;> rfl

theorem Counts.same (same : after.census = hub.census) : Counts hub.census action after.census :=
  same ▸ .stays action

/-- Every step is one on the census. -/
theorem counts_step (moves : Moves hub action after) : Counts hub.census action after.census := by
  cases moves with
  | @connect socket market ip user fresh ipRoom userRoom =>
      show Counts hub.census _
        { (hub.setPeer socket { hub.peers socket with call := .accepting market ip user }).census
          with known := insert socket hub.known }
      rw [census_setPeer]
      exact .applies market ip user fresh
  | @registered socket market ip user waits =>
      show Counts hub.census _
        { (hub.setPeer socket
            { hub.peers socket with
              subscriptions := some (insert market (hub.peers socket).subscribed)
              lastSeen := true
              ip := some ip
              user := some user
              call := .idle }).census with
          ipConnections := tally ip hub.ipConnections
          userConnections := tally user hub.userConnections }
      rw [census_setPeer]
      exact .registers (by simp [Hub.census, Peer.standing, waits, Call.applies])
  | @accepted socket market ip user waits =>
      refine .same (census_same rfl rfl rfl rfl ?_)
      simp [Peer.standing, Peer.registered, waits, Call.applies]
  | @connected socket market ip user waits =>
      refine .same (census_same rfl rfl rfl rfl ?_)
      simp [Peer.standing, Peer.registered, waits, Call.applies]
  | @subscribe socket market known idle =>
      refine .same (census_same rfl rfl rfl rfl ?_)
      simp [Peer.standing, Peer.registered, idle, Call.applies]
  | @declined socket market waits declines =>
      refine .same (census_same rfl rfl rfl rfl ?_)
      simp [Peer.standing, Peer.registered, waits, Call.applies]
  | @recorded socket market subscriptions waits found new room =>
      refine .same (census_same rfl rfl rfl rfl ?_)
      simp [Peer.standing, Peer.registered, waits, found, Call.applies]
  | @joined socket market waits =>
      refine .same (census_same rfl rfl rfl rfl ?_)
      simp [Peer.standing, Peer.registered, waits, Call.applies]
  | @unsubscribe socket market known idle =>
      refine .same (census_same rfl rfl rfl rfl ?_)
      simp [Peer.standing, Peer.registered, idle, Call.applies]
  | @unneeded socket market waits absent =>
      refine .same (census_same rfl rfl rfl rfl ?_)
      simp [Peer.standing, Peer.registered, waits, Call.applies]
  | @struck socket market subscriptions waits found present =>
      refine .same (census_same rfl rfl rfl rfl ?_)
      simp [Peer.standing, Peer.registered, waits, found, Call.applies]
  | @parted socket market waits =>
      refine .same (census_same rfl rfl rfl rfl ?_)
      simp [Peer.standing, Peer.registered, waits, Call.applies]
  | @setGrid socket marketIds known idle =>
      refine .same (census_same rfl rfl rfl rfl ?_)
      unfold Peer.setGrid
      split
      · exact addFresh_standing (by simp [Peer.subscribeGrid, Peer.clearGrid, idle, Call.applies])
      · simp [Peer.standing, Peer.registered, Peer.subscribeGrid, Peer.clearGrid, idle,
          Call.applies]
  | @dropped socket previous accepted waits =>
      refine .same (census_same rfl rfl rfl rfl (addFresh_standing ?_))
      simp [waits, Call.applies]
  | @added socket previous accepted waits =>
      refine .same (census_same rfl rfl rfl rfl ?_)
      simp [Peer.standing, Peer.registered, waits, Call.applies]
  | touch known idle => exact .same (census_same rfl rfl rfl rfl rfl)
  | releaseGrid known idle => exact .same census_releaseGrid
  | disconnect known locked => exact .same (census_setExits.trans census_startLeaving)
  | @disconnectUnlocked socket markets known unlocked lists =>
      rw [census_popSocket, census_startLeaving]
      exact .leaves _ socket
  | @popped socket before later markets waits lists =>
      rw [census_popSocket]
      exact .leaves _ socket
  | @cleared socket before later market rest all waits =>
      exact .same census_clearNext
  | released waits => exact .same census_releaseNext
  | @buffer market =>
      refine .same ?_
      unfold Hub.census
      congr 1
      funext socket
      by_cases shows : socket ∈ hub.gridSubscribers.members market <;>
        simp [shows, Peer.standing, Peer.registered]
  | flush => exact .same rfl

end Steps

/-! # The counters -/

/-- The address that a socket is counted for, or will be. -/
def Standing.ipSeat (standing : Standing) : Option Ip :=
  standing.ip.getD (standing.applies.bind Prod.fst)

def Standing.userSeat (standing : Standing) : Option UserId :=
  standing.user.getD (standing.applies.bind Prod.snd)

/-- The sockets that are counted under a key, or will be. -/
def seated {κ : Type} [DecidableEq κ] (census : Census) (seat : Standing → Option κ) (key : κ) :
    Finset Socket :=
  census.known.filter fun socket => seat (census.standing socket) = some key

/-- A connection is admitted while the sockets that are registered or wait to be are below the
caps. -/
def Admits (hub : Hub) : Action → Prop
  | .connect _ _ ip user =>
      (∀ address ∈ ip, (seated hub.census Standing.ipSeat address).card < maxConnectionsPerIp) ∧
        ∀ account ∈ user,
          (seated hub.census Standing.userSeat account).card < maxConnectionsPerUser
  | _ => True

/-- A socket is registered with both its entries, and none that waits to be is registered. -/
structure Standing.Proper (standing : Standing) : Prop where
  ipPaired : standing.ip.isSome = standing.registered
  userPaired : standing.user.isSome = standing.registered
  fresh : standing.applies ≠ none → standing.registered = false

/-- The counters count the sockets that are registered. -/
structure Census.Sound (census : Census) : Prop where
  absent : ∀ socket, socket ∉ census.known → census.standing socket = .unknown
  proper : ∀ socket, (census.standing socket).Proper
  ips : Backed census.known (fun socket => slots (census.standing socket).ip) census.ipConnections
  users : Backed census.known (fun socket => slots (census.standing socket).user)
    census.userConnections

section Counters

variable {census after : Census} {action : Action} {socket other : Socket} {standing : Standing}

@[simp] theorem put_self : (census.put socket standing).standing socket = standing := by
  simp [Census.put]

@[simp] theorem put_other (different : other ≠ socket) :
    (census.put socket standing).standing other = census.standing other := by
  simp [Census.put, different]

theorem put_proper (others : ∀ other, (census.standing other).Proper)
    (here : standing.Proper) (other : Socket) :
    ((census.put socket standing).standing other).Proper := by
  by_cases same : other = socket
  · rw [same, put_self]
    exact here
  · rw [put_other same]
    exact others other

section Slots

variable {κ : Type} [DecidableEq κ] {slot : Standing → Option (Option κ)} {counts : κ → ℕ}

theorem backed_registers {entry : Option κ}
    (backed : Backed census.known (fun socket => slots (slot (census.standing socket))) counts)
    (member : socket ∈ census.known) (absent : slot (census.standing socket) = none)
    (entered : slot standing = some entry) :
    Backed census.known (fun other => slots (slot ((census.put socket standing).standing other)))
      (tally entry counts) := by
  refine backed.step member (fun other different => by rw [put_other different]) fun key => ?_
  rw [put_self, tally_slots, absent, entered]
  simp [slots]

theorem backed_leaves
    (backed : Backed census.known (fun socket => slots (slot (census.standing socket))) counts)
    (member : socket ∈ census.known) (left : slot standing = none) :
    Backed census.known (fun other => slots (slot ((census.put socket standing).standing other)))
      (untally (slot (census.standing socket)).join counts) := by
  refine backed.step member (fun other different => by rw [put_other different]) fun key => ?_
  have covered := backed.le member key
  rw [put_self, untally_slots, left]
  simp only [slots, reduceCtorEq, if_false, add_zero] at covered ⊢
  omega

theorem backed_applies
    (backed : Backed census.known (fun socket => slots (slot (census.standing socket))) counts)
    (absent : slot (census.standing socket) = none) (same : slot standing = none) :
    Backed (insert socket census.known)
      (fun other => slots (slot ((census.put socket standing).standing other))) counts := by
  refine (backed.enter fun key => ?_).congr fun other key => ?_
  · rw [absent]
    rfl
  · by_cases here : other = socket
    · rw [here, put_self, absent, same]
    · rw [put_other here]

end Slots

theorem Standing.Proper.entries (proper : standing.Proper) (absent : standing.registered = false) :
    standing.ip = none ∧ standing.user = none := by
  have ipPaired := proper.ipPaired
  have userPaired := proper.userPaired
  rw [absent, Option.isSome_eq_false_iff, Option.isNone_iff_eq_none] at ipPaired userPaired
  exact ⟨ipPaired, userPaired⟩

theorem Census.Sound.member (sound : census.Sound)
    (waits : (census.standing socket).applies ≠ none) : socket ∈ census.known := by
  by_contra unknown
  rw [sound.absent socket unknown] at waits
  exact waits rfl

theorem Census.Sound.leaves (sound : census.Sound) (member : socket ∈ census.known) :
    (census.leaves socket).Sound where
  absent := by
    intro other unknown
    have different : other ≠ socket := fun same => unknown (same ▸ member)
    exact (put_other different).trans (sound.absent other unknown)
  proper := put_proper sound.proper ⟨rfl, rfl, fun _ => rfl⟩
  ips := backed_leaves sound.ips member rfl
  users := backed_leaves sound.users member rfl

theorem Census.Sound.applies (sound : census.Sound) (fresh : socket ∉ census.known)
    (ip : Option Ip) (user : Option UserId) : (census.applies socket ip user).Sound where
  absent := by
    intro other absent
    have different : other ≠ socket := fun same => absent (same ▸ Finset.mem_insert_self _ _)
    have unknown : other ∉ census.known := fun known => absent (Finset.mem_insert_of_mem known)
    exact (put_other different).trans (sound.absent other unknown)
  proper := by
    refine put_proper sound.proper ?_
    rw [sound.absent socket fresh]
    exact ⟨rfl, rfl, fun _ => rfl⟩
  ips := by
    have none := congrArg Standing.ip (sound.absent socket fresh)
    exact backed_applies sound.ips none none
  users := by
    have none := congrArg Standing.user (sound.absent socket fresh)
    exact backed_applies sound.users none none

theorem Census.Sound.registers (sound : census.Sound)
    (waits : (census.standing socket).applies ≠ none) (ip : Option Ip) (user : Option UserId) :
    (census.registers socket ip user).Sound := by
  have member := sound.member waits
  have proper := sound.proper socket
  obtain ⟨noIp, noUser⟩ := proper.entries (proper.fresh waits)
  refine ⟨?_, ?_, ?_, ?_⟩
  · intro other unknown
    have different : other ≠ socket := fun same => unknown (same ▸ member)
    exact (put_other different).trans (sound.absent other unknown)
  · exact put_proper sound.proper ⟨rfl, rfl, fun waits => absurd rfl waits⟩
  · exact backed_registers sound.ips member noIp rfl
  · exact backed_registers sound.users member noUser rfl

theorem untally_none {κ : Type} [DecidableEq κ] (counts : κ → ℕ) : untally none counts = counts := by
  funext key
  simp [untally]

/-- A socket that is not known has nothing to leave. -/
theorem leaves_unknown (unknown : census.standing socket = .unknown) :
    census.leaves socket = census := by
  unfold Census.leaves
  rw [unknown]
  show { census.put socket .unknown with
    ipConnections := untally none census.ipConnections
    userConnections := untally none census.userConnections } = census
  rw [put_same unknown.symm, untally_none, untally_none]

theorem Census.Sound.counts (sound : census.Sound) (counts : Counts census action after) :
    after.Sound := by
  cases counts with
  | stays => exact sound
  | applies market ip user fresh => exact sound.applies fresh ip user
  | @registers socket ip user applied => exact sound.registers (by simp [applied]) ip user
  | leaves _ socket =>
      by_cases member : socket ∈ census.known
      · exact sound.leaves member
      · rw [leaves_unknown (sound.absent socket member)]
        exact sound

end Counters

/-! # The caps -/

section Caps

variable {census after : Census} {hub : Hub} {action : Action} {actions : List Action}
  {socket : Socket} {standing : Standing} {κ : Type} [DecidableEq κ]
  {seat : Standing → Option κ} {key : κ}

/-- A socket's seat stays what it is, or is given up. -/
theorem seated_put_subset
    (kept : seat standing = seat (census.standing socket) ∨ seat standing = none) :
    seated (census.put socket standing) seat key ⊆ seated census seat key := by
  intro other member
  obtain ⟨known, sits⟩ := Finset.mem_filter.mp member
  refine Finset.mem_filter.mpr ⟨known, ?_⟩
  by_cases same : other = socket
  · subst same
    rw [put_self] at sits
    rcases kept with kept | left
    · rw [← kept, sits]
    · rw [left] at sits
      cases sits
  · rw [put_other same] at sits
    exact sits

/-- A socket that comes takes one seat, if it is one of this key. -/
theorem seated_enter_subset :
    seated { census.put socket standing with known := insert socket census.known } seat key ⊆
      if seat standing = some key then insert socket (seated census seat key)
      else seated census seat key := by
  intro other member
  obtain ⟨known, sits⟩ := Finset.mem_filter.mp member
  by_cases same : other = socket
  · subst same
    have here : seat standing = some key := by rw [← sits]; exact (congrArg seat put_self).symm
    rw [if_pos here]
    exact Finset.mem_insert_self _ _
  · have sat : seat (census.standing other) = some key := by
      rw [← sits]
      exact (congrArg seat (put_other same)).symm
    have seatedBefore : other ∈ seated census seat key :=
      Finset.mem_filter.mpr ⟨Finset.mem_of_mem_insert_of_ne known same, sat⟩
    split
    · exact Finset.mem_insert_of_mem seatedBefore
    · exact seatedBefore

theorem seated_enter_card {cap : ℕ} (bounded : (seated census seat key).card ≤ cap)
    (room : seat standing = some key → (seated census seat key).card < cap) :
    (seated { census.put socket standing with known := insert socket census.known } seat
      key).card ≤ cap := by
  refine (Finset.card_le_card seated_enter_subset).trans ?_
  split
  · rename_i takes
    exact (Finset.card_insert_le _ _).trans (room takes)
  · exact bounded

/-- The caps with the sockets that wait to be registered. -/
structure Census.Capped (census : Census) : Prop where
  ips : ∀ address, (seated census Standing.ipSeat address).card ≤ maxConnectionsPerIp
  users : ∀ account, (seated census Standing.userSeat account).card ≤ maxConnectionsPerUser

/-- A socket that is registered keeps the seats it has waited for. -/
theorem registers_seats {ip : Option Ip} {user : Option UserId} (proper : standing.Proper)
    (applied : standing.applies = some (ip, user)) :
    standing.ipSeat = ip ∧ standing.userSeat = user := by
  have waits : standing.applies ≠ none := by simp [applied]
  obtain ⟨noIp, noUser⟩ := proper.entries (proper.fresh waits)
  simp [Standing.ipSeat, Standing.userSeat, noIp, noUser, applied]

/-- A socket that leaves gives up its seats, or it still waits for them. -/
theorem leaves_seats (proper : standing.Proper) :
    ((standing.applies.bind Prod.fst = standing.ipSeat) ∨ standing.applies.bind Prod.fst = none) ∧
      (standing.applies.bind Prod.snd = standing.userSeat ∨
        standing.applies.bind Prod.snd = none) := by
  by_cases waits : standing.applies = none
  · rw [waits]
    exact ⟨.inr rfl, .inr rfl⟩
  · obtain ⟨noIp, noUser⟩ := proper.entries (proper.fresh waits)
    simp [Standing.ipSeat, Standing.userSeat, noIp, noUser]

theorem Census.Capped.counts (capped : hub.census.Capped) (sound : hub.census.Sound)
    (admits : Admits hub action) (counts : Counts hub.census action after) : after.Capped := by
  cases counts with
  | stays => exact capped
  | @applies socket market ip user fresh =>
      have unknown := sound.absent socket fresh
      refine ⟨fun address => ?_, fun account => ?_⟩
      · refine seated_enter_card (capped.ips address) fun takes => admits.1 address ?_
        rw [unknown] at takes
        exact takes
      · refine seated_enter_card (capped.users account) fun takes => admits.2 account ?_
        rw [unknown] at takes
        exact takes
  | @registers socket ip user applied =>
      obtain ⟨ipSeat, userSeat⟩ := registers_seats (sound.proper socket) applied
      refine ⟨fun address => ?_, fun account => ?_⟩
      · refine (Finset.card_le_card (seated_put_subset (.inl ?_))).trans (capped.ips address)
        exact ipSeat.symm
      · refine (Finset.card_le_card (seated_put_subset (.inl ?_))).trans (capped.users account)
        exact userSeat.symm
  | leaves _ socket =>
      obtain ⟨ipSeat, userSeat⟩ := leaves_seats (sound.proper socket)
      exact ⟨fun address =>
          (Finset.card_le_card (seated_put_subset ipSeat)).trans (capped.ips address),
        fun account =>
          (Finset.card_le_card (seated_put_subset userSeat)).trans (capped.users account)⟩

theorem sound_empty : Hub.empty.census.Sound :=
  ⟨fun _ _ => rfl, fun _ => ⟨rfl, rfl, fun _ => rfl⟩, fun _ => rfl, fun _ => rfl⟩

/-- However calls and disconnects overlap, the counters count the registered sockets. -/
theorem sound_run {guard : Hub → Action → Prop} (run : Run Moves guard .empty actions hub) :
    hub.census.Sound :=
  run.invariant (fun hub => hub.census.Sound)
    (fun _ _ _ _ moves sound => sound.counts (counts_step moves)) sound_empty

theorem Census.Sound.counted (sound : hub.census.Sound) : Counted hub := ⟨sound.ips, sound.users⟩

theorem fromIp_card_le (hub : Hub) (address : Ip) :
    (hub.fromIp address).card ≤ (seated hub.census Standing.ipSeat address).card := by
  refine Finset.card_le_card fun socket member => ?_
  obtain ⟨known, -, ip⟩ := Finset.mem_filter.mp member
  refine Finset.mem_filter.mpr ⟨known, ?_⟩
  simp [Hub.census, Peer.standing, Standing.ipSeat, ip]

theorem ofUser_card_le (hub : Hub) (account : UserId) :
    (hub.ofUser account).card ≤ (seated hub.census Standing.userSeat account).card := by
  refine Finset.card_le_card fun socket member => ?_
  obtain ⟨known, -, user⟩ := Finset.mem_filter.mp member
  refine Finset.mem_filter.mpr ⟨known, ?_⟩
  simp [Hub.census, Peer.standing, Standing.userSeat, user]

/-- If those that wait are counted with the registered, no cap is exceeded. -/
theorem connections_are_capped (run : Run Moves Admits .empty actions hub) :
    (∀ account, (hub.ofUser account).card ≤ maxConnectionsPerUser) ∧
    (∀ address, (hub.fromIp address).card ≤ maxConnectionsPerIp) ∧
    (∀ account, hub.userConnections account = (hub.ofUser account).card) ∧
    ∀ address, hub.ipConnections address = (hub.fromIp address).card := by
  have sound := sound_run run
  have capped : hub.census.Sound ∧ hub.census.Capped := by
    refine run.invariant (fun hub => hub.census.Sound ∧ hub.census.Capped) ?_
      ⟨sound_empty, fun _ => Nat.zero_le _, fun _ => Nat.zero_le _⟩
    rintro before action after admits moves ⟨sound, capped⟩
    exact ⟨sound.counts (counts_step moves), capped.counts sound admits (counts_step moves)⟩
  refine ⟨fun account => (ofUser_card_le hub account).trans (capped.2.users account),
    fun address => (fromIp_card_le hub address).trans (capped.2.ips address), ?_, ?_⟩
  · exact sound.counted.ofUser fun socket => (sound.proper socket).userPaired
  · exact sound.counted.fromIp fun socket => (sound.proper socket).ipPaired

end Caps

/-- A user's two connections overlap, and one of them goes while it still waits. -/
theorem connections_are_capped_of_two :
    ∃ hub, Run Moves Admits .empty
        [.connect 1 "a" (some 9) (some 7), .connect 2 "a" (some 9) (some 7), .resume 1, .resume 2,
          .disconnect 2, .resume 1, .resume 1, .resume 2, .resume 2] hub ∧
      hub.ofUser 7 = {1, 2} ∧ (hub.ofUser 7).card ≤ maxConnectionsPerUser ∧
      hub.userConnections 7 = 2 := by
  obtain ⟨hub, run, both⟩ : ∃ hub, Run Moves Admits .empty
        [.connect 1 "a" (some 9) (some 7), .connect 2 "a" (some 9) (some 7), .resume 1, .resume 2,
          .disconnect 2, .resume 1, .resume 1, .resume 2, .resume 2] hub ∧
      hub.ofUser 7 = {1, 2} := by
    refine ⟨?hub, ?run, ?_⟩
    case run =>
      apply Run.act ⟨by decide, by decide⟩ (.connect (by decide) (by decide) (by decide))
      apply Run.act ⟨by decide, by decide⟩ (.connect (by decide) (by decide) (by decide))
      apply Run.act trivial (.accepted rfl)
      apply Run.act trivial (.accepted rfl)
      apply Run.act trivial (@Moves.disconnectUnlocked _ 2 [] (by decide) rfl
        ⟨by decide, fun _ => Iff.rfl⟩)
      apply Run.act trivial (.connected rfl)
      apply Run.act trivial (.registered rfl)
      apply Run.act trivial (.connected rfl)
      apply Run.act trivial (.registered rfl)
      exact .stop _
    · decide
  obtain ⟨users, -, counted, -⟩ := connections_are_capped run
  refine ⟨hub, run, both, users 7, ?_⟩
  rw [counted 7, both]
  rfl

/-- Six connections of a user are all admitted before the first of them is counted. -/
theorem six_connections_of_one_user :
    ∃ actions hub, Run Moves (fun _ _ => True) .empty actions hub ∧
      maxConnectionsPerUser < (hub.ofUser 7).card := by
  have run : ∃ hub, Run Moves (fun _ _ => True) .empty
      [.connect 1 "a" none (some 7), .connect 2 "a" none (some 7), .connect 3 "a" none (some 7),
        .connect 4 "a" none (some 7), .connect 5 "a" none (some 7), .connect 6 "a" none (some 7),
        .resume 1, .resume 1, .resume 1, .resume 2, .resume 2, .resume 2, .resume 3, .resume 3,
        .resume 3, .resume 4, .resume 4, .resume 4, .resume 5, .resume 5, .resume 5, .resume 6,
        .resume 6, .resume 6] hub ∧ maxConnectionsPerUser < (hub.ofUser 7).card := by
    refine ⟨?hub, ?run, ?_⟩
    case run =>
      iterate 6 apply Run.act trivial (.connect (by decide) (by decide) (by decide))
      iterate 6
        apply Run.act trivial (.accepted rfl)
        apply Run.act trivial (.connected rfl)
        apply Run.act trivial (.registered rfl)
      exact .stop _
    · decide
  obtain ⟨hub, run, exceeded⟩ := run
  exact ⟨_, hub, run, exceeded⟩

end PredictX.ConnectionManager
