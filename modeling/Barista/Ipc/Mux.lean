import Barista.Ipc.Transport
import Barista.Automaton

/-!
# The multiplexer

A reader and a writer task share the table of the actions. Events are routed to the handle of their
action; when the connection is lost, the registered handles are notified one by one.
-/

namespace Barista.Ipc

open Wire (TransportError)

inductive StreamEvent where
  | progress (actionId : String) (payload : Bytes)
  | stream (actionId : String) (payload : Bytes)
  | result (actionId : String) (payload : Bytes)
  | error (error : Wire.Error)
  deriving DecidableEq

namespace StreamEvent

def actionId : StreamEvent → String
  | progress actionId _ => actionId
  | stream actionId _ => actionId
  | result actionId _ => actionId
  | .error failure => failure.actionId

def isTerminal : StreamEvent → Bool
  | progress _ _ => false
  | stream _ _ => false
  | result _ _ => true
  | .error _ => true

end StreamEvent

inductive Body where
  | action (actionId : String)
  | event (event : StreamEvent)
  | cancel (actionId : String)
  | control
  deriving DecidableEq

inductive Item where
  | peer (event : StreamEvent)
  | crash (error : Wire.Error)
  deriving DecidableEq

namespace Item

def event : Item → StreamEvent
  | peer event => event
  | crash error => .error error

def isTerminal (item : Item) : Bool := item.event.isTerminal

def fromPeer : Item → Option StreamEvent
  | peer event => some event
  | crash _ => none

end Item

def daemonCrashedCode : String := "BAR-DAEMON-CRASHED"

def crashError (kind actionId : String) : Wire.Error where
  code := daemonCrashedCode
  message := "barback daemon disappeared mid-action (" ++ kind ++ "); the action is retryable"
  actionId := actionId
  details := [("retryable", "true"), ("kind", kind)]

def outboundBuffer : ℕ := 64

def perActionBuffer : ℕ := 32

inductive Receiver where
  | absent
  | submitting
  | live
  | dropped
  deriving DecidableEq

structure Channel where
  buffered : List Item
  /-- What the handle of the action has returned so far. -/
  yielded : List Item
  receiver : Receiver
  /-- The handle has reported the end of the channel. -/
  ended : Bool
  /-- The guard that keeps a handle from cancelling an action that is over. -/
  flagged : Bool
  deriving DecidableEq

namespace Channel

def absent : Channel := ⟨[], [], .absent, false, false⟩

def isOpen (channel : Channel) : Bool := channel.receiver = .submitting ∨ channel.receiver = .live

def admits (channel : Channel) : Bool :=
  !channel.isOpen || channel.buffered.length < perActionBuffer

def send (channel : Channel) (item : Item) : Channel :=
  if channel.isOpen then { channel with buffered := channel.buffered ++ [item] } else channel

def flag (channel : Channel) : Channel :=
  { channel with flagged := true }

variable {channel : Channel} {item : Item}

@[simp]
theorem yielded_send : (channel.send item).yielded = channel.yielded := by
  rw [send]
  split_ifs <;> rfl

@[simp]
theorem isOpen_send : (channel.send item).isOpen = channel.isOpen := by
  rw [send]
  split_ifs <;> rfl

@[simp]
theorem ended_send : (channel.send item).ended = channel.ended := by
  rw [send]
  split_ifs <;> rfl

theorem buffered_send (live : channel.isOpen = true) :
    (channel.send item).buffered = channel.buffered ++ [item] := by
  rw [send, if_pos live]

theorem send_of_closed (closed : channel.isOpen = false) : channel.send item = channel := by
  rw [send, if_neg (by simp [closed])]

end Channel

inductive Ending where
  | closing (cause : TransportError)
  | notifying (kind : String) (pending : List String)
  | stopped
  deriving DecidableEq

def Ending.pending : Ending → List String
  | .notifying _ pending => pending
  | _ => []

inductive Reader where
  | waiting
  | registering (actionId : String)
  | accepting (actionId : String)
  | routing (event : StreamEvent)
  /-- The reader has a sender of the channel and is about to send. -/
  | sending (event : StreamEvent)
  | cleaning (actionId : String)
  | ending (ending : Ending)
  deriving DecidableEq

inductive Writer where
  | waiting
  | ending (ending : Ending)
  deriving DecidableEq

inductive Party where
  | reader
  | writer
  deriving DecidableEq

structure Mux where
  /-- The registered actions of this side. -/
  clients : List String
  /-- The registered actions of the peer. -/
  servers : List String
  shutdown : Bool
  reader : Reader
  writer : Writer
  outbound : List Body
  /-- Actions of the peer that wait to be accepted. -/
  incoming : List String
  accepting : Bool
  channels : String → Channel
  /-- The identifiers that were given out. -/
  issued : List String
  /-- The frames that were taken off the wire. -/
  received : List (Option Body)

def eventsFor (actionId : String) (frames : List (Option Body)) : List StreamEvent :=
  frames.filterMap fun
    | some (.event event) => if event.actionId = actionId then some event else none
    | _ => none

namespace Reader

def dispatch : Option Body → Reader
  | none => waiting
  | some (.action actionId) => registering actionId
  | some (.event (.error error)) =>
    if error.actionId = "" then waiting else routing (.error error)
  | some (.event event) => routing event
  | some (.cancel _) => waiting
  | some .control => waiting

def afterRoute (event : StreamEvent) : Reader :=
  if event.isTerminal then cleaning event.actionId else waiting

def sendsTo (actionId : String) : Reader → Bool
  | sending event => event.actionId = actionId
  | _ => false

def pending : Reader → List String
  | ending state => state.pending
  | _ => []

end Reader

def Writer.pending : Writer → List String
  | .ending state => state.pending
  | .waiting => []

namespace Mux

def initial : Mux where
  clients := []
  servers := []
  shutdown := false
  reader := .waiting
  writer := .waiting
  outbound := []
  incoming := []
  accepting := true
  channels := fun _ => .absent
  issued := []
  received := []

variable (mux : Mux)

def endingOf : Party → Option Ending
  | .reader =>
    match mux.reader with
    | .ending ending => some ending
    | _ => none
  | .writer =>
    match mux.writer with
    | .ending ending => some ending
    | _ => none

def setEnding (ending : Ending) : Party → Mux
  | .reader => { mux with reader := .ending ending }
  | .writer => { mux with writer := .ending ending }

def owed : Party → List String
  | .reader => mux.reader.pending
  | .writer => mux.writer.pending

def crashKind : TransportError → Option String
  | .daemonCrashed kind => some kind
  | _ => none

def effectiveKind (cause : TransportError) : Option String :=
  (crashKind cause).orElse fun _ => if mux.clients = [] then none else some "UnexpectedEof"

def endingAfter (cause : TransportError) (order : List String) : Ending :=
  match mux.effectiveKind cause with
  | some kind => .notifying kind order
  | none => .stopped

def shutDown (party : Party) (cause : TransportError) (order : List String) : Mux :=
  { mux with clients := [], servers := [], shutdown := true }.setEnding
    (mux.endingAfter cause order) party

def hasSender (actionId : String) : Bool :=
  actionId ∈ mux.clients ∨ actionId ∈ mux.owed .reader ∨ actionId ∈ mux.owed .writer ∨
    mux.reader.sendsTo actionId

def outboundOpen : Bool := mux.writer ≠ .ending .stopped

def enqueue (body : Body) : Mux :=
  if mux.outboundOpen ∧ mux.outbound.length < outboundBuffer then
    { mux with outbound := mux.outbound ++ [body] }
  else mux

def fresh (actionId : String) : Bool :=
  actionId ≠ "" ∧ actionId ∉ mux.issued ∧ eventsFor actionId mux.received = []

def setChannel (actionId : String) (channel : Channel) : Mux :=
  { mux with channels := Function.update mux.channels actionId channel }

end Mux

inductive Act where
  | receive (body : Option Body)
  | loseConnection (cause : TransportError)
  | registerServer
  | accept
  | lookUp
  | deliver
  | cleanUp
  | shutDown (party : Party) (order : List String)
  | notify (party : Party)
  | finish (party : Party)
  | transmit
  | failToTransmit (cause : TransportError)
  | retire
  | submit (actionId : String)
  | request (actionId : String)
  | abandon (actionId : String)
  | next (actionId : String)
  | drop (actionId : String)
  | nextAction
  | closeServer
  | respond (body : Body)
  deriving DecidableEq

namespace Mux

variable (mux : Mux)

def step : Act → Option Mux
  | .receive body =>
    if mux.reader = .waiting then
      some { mux with reader := .dispatch body, received := mux.received ++ [body] }
    else none
  | .loseConnection cause =>
    if mux.reader = .waiting then some { mux with reader := .ending (.closing cause) } else none
  | .registerServer =>
    match mux.reader with
    | .registering actionId =>
      if mux.shutdown then some { mux with reader := .waiting }
      else
        some { mux with reader := .accepting actionId, servers := mux.servers.insert actionId }
    | _ => none
  | .accept =>
    match mux.reader with
    | .accepting actionId =>
      if mux.accepting then
        if mux.incoming.length < perActionBuffer then
          some { mux with reader := .waiting, incoming := mux.incoming ++ [actionId] }
        else none
      else some { mux with reader := .waiting }
    | _ => none
  | .lookUp =>
    match mux.reader with
    | .routing event =>
      some { mux with
        reader := if event.actionId ∈ mux.clients then .sending event else .afterRoute event }
    | _ => none
  | .deliver =>
    match mux.reader with
    | .sending event =>
      let channel := mux.channels event.actionId
      if channel.admits then
        some { mux.setChannel event.actionId (channel.send (.peer event)) with
          reader := .afterRoute event }
      else none
    | _ => none
  | .cleanUp =>
    match mux.reader with
    | .cleaning actionId =>
      let channel := mux.channels actionId
      some { mux.setChannel actionId (if actionId ∈ mux.clients then channel.flag else channel) with
        reader := .waiting
        clients := mux.clients.filter (· ≠ actionId)
        servers := mux.servers.filter (· ≠ actionId) }
    | _ => none
  | .shutDown party order =>
    match mux.endingOf party with
    | some (.closing cause) =>
      if order.isPerm mux.clients then some (mux.shutDown party cause order) else none
    | _ => none
  | .notify party =>
    match mux.endingOf party with
    | some (.notifying kind (actionId :: rest)) =>
      let channel := mux.channels actionId
      if channel.admits then
        some ((mux.setChannel actionId
          (channel.send (.crash (crashError kind actionId))).flag).setEnding
            (.notifying kind rest) party)
      else none
    | _ => none
  | .finish party =>
    match mux.endingOf party with
    | some (.notifying _ []) => some (mux.setEnding .stopped party)
    | _ => none
  | .transmit =>
    match mux.writer, mux.outbound with
    | .waiting, _ :: rest => some { mux with outbound := rest }
    | _, _ => none
  | .failToTransmit cause =>
    match mux.writer, mux.outbound with
    | .waiting, _ :: rest =>
      some { mux with outbound := rest, writer := .ending (.closing cause) }
    | _, _ => none
  | .retire =>
    match mux.writer, mux.outbound with
    | .waiting, [] => some { mux with writer := .ending .stopped }
    | _, _ => none
  | .submit actionId =>
    if mux.fresh actionId ∧ mux.shutdown = false then
      some { mux.setChannel actionId { Channel.absent with receiver := .submitting } with
        clients := mux.clients ++ [actionId]
        issued := actionId :: mux.issued }
    else none
  | .request actionId =>
    if (mux.channels actionId).receiver = .submitting ∧ mux.outboundOpen ∧
        mux.outbound.length < outboundBuffer then
      some ((mux.setChannel actionId
        { mux.channels actionId with receiver := .live }).enqueue (.action actionId))
    else none
  | .abandon actionId =>
    if (mux.channels actionId).receiver = .submitting then
      some (mux.setChannel actionId { mux.channels actionId with receiver := .dropped })
    else none
  | .next actionId =>
    let channel := mux.channels actionId
    if channel.receiver = .live then
      match channel.buffered with
      | item :: rest =>
        some (mux.setChannel actionId
          { channel with buffered := rest, yielded := channel.yielded ++ [item] })
      | [] =>
        if mux.hasSender actionId then none
        else some (mux.setChannel actionId { channel with ended := true })
    else none
  | .drop actionId =>
    let channel := mux.channels actionId
    if channel.receiver = .live then
      let dropped := mux.setChannel actionId { channel with receiver := .dropped, flagged := true }
      some (if channel.flagged then dropped else dropped.enqueue (.cancel actionId))
    else none
  | .nextAction =>
    match mux.incoming with
    | _ :: rest => some { mux with incoming := rest }
    | [] => none
  | .closeServer => some { mux with accepting := false }
  | .respond body =>
    if mux.outboundOpen ∧ mux.outbound.length < outboundBuffer then some (mux.enqueue body)
    else none

end Mux

end Barista.Ipc

/-!
# The table of the served actions

The arrival of an action makes an entry before the action is accepted, and its response does not
remove the entry.
-/

namespace Barista.Ipc.Mux

open List Automaton

/-- The accepted actions whose terminal response is not sent, after an act in `mux`. -/
def openAfter (mux : Mux) (pending : List String) : Act → List String
  | .accept =>
    match mux.reader with
    | .accepting actionId => if mux.accepting then actionId :: pending else pending
    | _ => pending
  | .respond (.event event) => if event.isTerminal then pending.erase event.actionId else pending
  | _ => pending

def serve (state : Mux × List String) (act : Act) : Option (Mux × List String) :=
  (state.1.step act).map fun next => (next, openAfter state.1 state.2 act)

/-- Every arrival is accepted, and no terminal response goes to an action that has an entry. -/
def ServesUnlisted (state : Mux × List String) : Act → Prop
  | .accept => state.1.accepting = true
  | .respond (.event event) => event.isTerminal = true → event.actionId ∉ state.1.servers
  | _ => True

instance (state : Mux × List String) (act : Act) : Decidable (ServesUnlisted state act) := by
  unfold ServesUnlisted
  split <;> infer_instance

/-- The action that has an entry and is not accepted yet. -/
def arriving (mux : Mux) : List String :=
  match mux.reader with
  | .accepting actionId => [actionId]
  | _ => []

theorem arriving_eq_nil {mux : Mux} (settled : ∀ id, mux.reader ≠ .accepting id) :
    mux.arriving = [] := by
  unfold arriving
  split
  · rename_i id reader
    exact absurd reader (settled id)
  · rfl

theorem servers_setEnding (mux : Mux) (ending : Ending) (party : Party) :
    (mux.setEnding ending party).servers = mux.servers := by
  cases party <;> rfl

theorem servers_enqueue (mux : Mux) (body : Body) : (mux.enqueue body).servers = mux.servers := by
  rw [enqueue]
  split_ifs <;> rfl

theorem servers_of_step {mux mux' : Mux} {act : Act} (taken : mux.step act = some mux') :
    mux'.servers <+ mux.servers ∨ ∃ id, act = .registerServer ∧ mux'.reader = .accepting id ∧
      mux'.servers = mux.servers.insert id := by
  unfold step at taken
  dsimp only at taken
  (split at taken) <;> (repeat' split at taken) <;> cases taken <;>
    simp [shutDown, setChannel, filter_sublist, servers_setEnding, servers_enqueue]

theorem reader_enqueue (mux : Mux) (body : Body) : (mux.enqueue body).reader = mux.reader := by
  rw [enqueue]
  split_ifs <;> rfl

theorem eq_writer_of_ending {mux : Mux} {id : String} {party : Party} {ending : Ending}
    (reader : mux.reader = .accepting id) (ends : mux.endingOf party = some ending) :
    party = .writer := by
  cases party with
  | reader => simp [endingOf, reader] at ends
  | writer => rfl

theorem arriving_of_step {mux mux' : Mux} {act : Act} (taken : mux.step act = some mux')
    (other : act ≠ .accept) : mux.arriving <+ mux'.arriving := by
  by_cases settled : ∀ id, mux.reader ≠ .accepting id
  · rw [arriving_eq_nil settled]
    exact nil_sublist _
  · push Not at settled
    rcases settled with ⟨id, reader⟩
    suffices same : mux'.reader = mux.reader by rw [arriving, arriving, same]
    unfold step at taken
    dsimp only at taken
    (split at taken) <;> (repeat' split at taken) <;> cases taken <;>
      simp_all [setChannel, reader_enqueue]
    all_goals
      cases eq_writer_of_ending reader (by assumption)
      simp [shutDown, setEnding, reader]

theorem subperm_of_accept {state : Mux × List String} {next : Mux}
    (open_ : state.1.accepting = true)
    (taken : state.1.step .accept = some next) :
    state.1.arriving ++ state.2 <+~ openAfter state.1 state.2 .accept := by
  cases reader : state.1.reader with
  | accepting id =>
    simp only [arriving, openAfter, reader, open_, ↓reduceIte]
    exact .refl _
  | _ => simp [step, reader] at taken

/-- Every entry of the table belongs to an open action, or to the one that is arriving. -/
theorem subperm_of_serve {state state' : Mux × List String} {act : Act}
    (tabled : state.1.servers <+~ state.1.arriving ++ state.2) (meets : ServesUnlisted state act)
    (taken : serve state act = some state') :
    state'.1.servers <+~ state'.1.arriving ++ state'.2 := by
  rcases Option.map_eq_some_iff.mp taken with ⟨next, steps, rfl⟩
  rcases servers_of_step steps with fewer | ⟨id, rfl, accepts, inserted⟩
  · apply fewer.subperm.trans
    by_cases accept : act = .accept
    · subst accept
      exact tabled.trans ((subperm_of_accept meets steps).trans
        (sublist_append_right _ _).subperm)
    · have arrives := arriving_of_step steps accept
      unfold openAfter
      split
      · exact absurd rfl accept
      · rename_i event
        split_ifs with terminal
        · have unlisted : event.actionId ∉ state.1.servers := meets terminal
          rw [subperm_ext_iff] at tabled ⊢
          intro entry mem
          have ne : entry ≠ event.actionId := fun same => unlisted (same ▸ mem)
          rw [count_append, count_erase_of_ne ne]
          calc count entry state.1.servers ≤ count entry state.1.arriving + count entry state.2 :=
              (tabled entry mem).trans_eq (count_append ..)
            _ ≤ count entry next.arriving + count entry state.2 :=
              Nat.add_le_add_right (arrives.count_le entry) _
        · exact tabled.trans (arrives.append_right _).subperm
      · exact tabled.trans (arrives.append_right _).subperm
  · have settled : state.1.arriving = [] := by
      apply arriving_eq_nil
      rintro other reader
      simp [step, reader] at steps
    have arrives : next.arriving = [id] := by simp [arriving, accepts]
    rw [settled, nil_append] at tabled
    simp only [inserted, arrives, openAfter]
    by_cases listed : id ∈ state.1.servers
    · rw [insert_of_mem listed]
      exact tabled.trans (sublist_cons_self _ _).subperm
    · rw [insert_of_not_mem listed]
      exact (subperm_cons id).mpr tabled

/-- The result that the peer sends under the name of its own action removes the entry of `a1`, so
that `a1` may be answered. -/
def twoArrivals : List Act :=
  [.receive (some (.action "a1")), .registerServer, .accept, .nextAction,
    .receive (some (.action "a2")), .registerServer, .accept,
    .receive (some (.event (.result "a1" []))), .lookUp, .cleanUp,
    .respond (.event (.result "a1" []))]

end Barista.Ipc.Mux
