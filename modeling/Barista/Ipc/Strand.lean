import Barista.Ipc.Mux

/-!
# The strand of one action

The part of the multiplexer that concerns a single action. Every step of the multiplexer is a step
of each strand or leaves it alone.
-/

namespace Barista.Ipc

open List Function

inductive Carrier where
  | idle
  | routing (event : StreamEvent)
  | sending (event : StreamEvent)
  | cleaning
  deriving DecidableEq

namespace Carrier

def after (event : StreamEvent) : Carrier :=
  if event.isTerminal then cleaning else idle

def load : Carrier → List StreamEvent
  | routing event => [event]
  | sending event => [event]
  | _ => []

@[simp]
theorem after_load (ev : StreamEvent) : (after ev).load = [] := by
  rw [after]
  split_ifs <;> rfl

theorem after_ne_sending (ev other : StreamEvent) : after ev ≠ sending other := by
  rw [after]
  split_ifs <;> simp

theorem isTerminal_of_after {ev : StreamEvent} (cleans : after ev = cleaning) :
    ev.isTerminal = true := by
  rw [after] at cleans
  split_ifs at cleans with terminal
  exact terminal

end Carrier

@[ext]
structure Strand where
  issued : Bool
  registered : Bool
  carrier : Carrier
  /-- The tasks that have taken the action and not reported the crash yet. -/
  owedBy : Party → Bool
  /-- The events of the peer for the action. -/
  events : List StreamEvent
  /-- What was put into the channel. -/
  delivered : List Item
  /-- How much of that the handle has returned. -/
  taken : ℕ
  isOpen : Bool
  ended : Bool

namespace Strand

variable (actionId : String) (calm : Prop) (strand : Strand)

def fromPeer : List StreamEvent := strand.delivered.filterMap Item.fromPeer

def Undisturbed : Prop := (∀ event, strand.carrier ≠ .sending event) ∧
    (strand.carrier = .cleaning → strand.registered = false)

inductive Step : Strand → Prop
  | stay : Step strand
  | receive (event : StreamEvent) (idle : strand.carrier = .idle)
      (names : event.actionId = actionId) :
      Step { strand with carrier := .routing event, events := strand.events ++ [event] }
  | find (event : StreamEvent) (turn : strand.carrier = .routing event)
      (registered : strand.registered = true) : Step { strand with carrier := .sending event }
  | miss (event : StreamEvent) (turn : strand.carrier = .routing event)
      (unregistered : strand.registered = false) : Step { strand with carrier := .after event }
  | deliver (event : StreamEvent) (turn : strand.carrier = .sending event)
      (live : strand.isOpen = true) :
      Step { strand with carrier := .after event, delivered := strand.delivered ++ [.peer event] }
  | discard (event : StreamEvent) (turn : strand.carrier = .sending event)
      (closed : strand.isOpen = false) : Step { strand with carrier := .after event }
  | cleanUp (turn : strand.carrier = .cleaning) :
      Step { strand with carrier := .idle, registered := false }
  | register (new : strand.issued = false) (unseen : strand.events = []) : Step
        { strand with
          issued := true, registered := true, delivered := [], taken := 0, isOpen := true
          ended := false }
  | drain (party : Party) (idle : party = .reader → strand.carrier = .idle)
      (undisturbed : calm → party = .writer → strand.Undisturbed)
      (free : strand.owedBy party = false) : Step
        { strand with
          registered := false, owedBy := update strand.owedBy party strand.registered }
  | notify (party : Party) (kind : String) (owed : strand.owedBy party = true)
      (live : strand.isOpen = true) : Step
        { strand with
          owedBy := update strand.owedBy party false
          delivered := strand.delivered ++ [.crash (crashError kind actionId)] }
  | forgo (party : Party) (owed : strand.owedBy party = true) (closed : strand.isOpen = false) :
      Step { strand with owedBy := update strand.owedBy party false }
  | take (available : strand.taken < strand.delivered.length) :
      Step { strand with taken := strand.taken + 1 }
  | finish (live : strand.isOpen = true) (empty : strand.taken = strand.delivered.length)
      (unregistered : strand.registered = false) (settled : ∀ party, strand.owedBy party = false)
      (unsent : ∀ event, strand.carrier ≠ .sending event) : Step { strand with ended := true }
  | close : Step { strand with isOpen := false }

variable {strand calm} {strand' : Strand} {id : String}

def Terminated (items : List Item) : Prop :=
  ∃ item ∈ items, item.isTerminal = true

variable {items : List Item}

theorem Terminated.append (terminated : Terminated items) (more : List Item) :
    Terminated (items ++ more) := by
  rcases terminated with ⟨item, mem, terminal⟩
  exact ⟨item, mem_append_left _ mem, terminal⟩

theorem Terminated.take_append {count : ℕ}
    (terminated : Terminated (items.take count)) (more : List Item) :
    Terminated ((items ++ more).take count) := by
  rw [List.take_append]
  exact terminated.append _

/-- What is delivered for the action is what the peer sent for it, in order. -/
structure Faithful (actionId : String) (strand : Strand) : Prop where
  /-- An action that does not exist yet has left no traces. -/
  unissued : strand.issued = false → strand.registered = false ∧ strand.delivered = [] ∧
    strand.isOpen = false ∧ strand.ended = false ∧ ∀ party, strand.owedBy party = false
  unseen : strand.events = [] → strand.carrier = .idle
  names : ∀ item ∈ strand.delivered, item.event.actionId = actionId
  loaded : ∀ event ∈ strand.carrier.load, event.actionId = actionId
  ordered : strand.fromPeer <+: strand.events
  sent : strand.isOpen = true → ∀ event, strand.carrier = .sending event →
    strand.fromPeer ++ [event] <+: strand.events
  complete : strand.isOpen = true → strand.registered = true →
    strand.fromPeer ++ strand.carrier.load = strand.events
  cleaned : strand.isOpen = true → strand.registered = true → strand.carrier = .cleaning →
    Terminated strand.delivered
  settled : strand.isOpen = true → strand.registered = false →
    (∀ party, strand.owedBy party = false) → Terminated strand.delivered
  terminated : strand.ended = true → Terminated (strand.delivered.take strand.taken)

namespace Faithful

theorem seen (faithful : Faithful id strand) (busy : strand.carrier ≠ .idle) :
    strand.events ≠ [] := fun none => busy (faithful.unseen none)

theorem issued (faithful : Faithful id strand) (live : strand.isOpen = true) :
    strand.issued = true := by
  by_contra new
  have closed := (faithful.unissued (by simpa using new)).2.2.1
  simp [live] at closed

variable {ev : StreamEvent}

section Receiving

variable (faithful : Faithful id strand)

include faithful

theorem receive (idle : strand.carrier = .idle) (names : ev.actionId = id) : Faithful id
      { strand with carrier := .routing ev, events := strand.events ++ [ev] } where
  unissued := faithful.unissued
  unseen := by simp
  names := faithful.names
  loaded := by simpa [Carrier.load] using names
  ordered := faithful.ordered.trans (prefix_append _ _)
  sent := by
    rintro _ _ ⟨⟩
  complete := by
    intro live reg
    have all : strand.fromPeer = strand.events := by
      simpa [idle, Carrier.load] using faithful.complete live reg
    exact congrArg (· ++ [ev]) all
  cleaned := by
    rintro _ _ ⟨⟩
  settled := faithful.settled
  terminated := faithful.terminated

theorem find (turn : strand.carrier = .routing ev) (reg : strand.registered = true) :
    Faithful id { strand with carrier := .sending ev } := by
  have all : strand.isOpen = true → strand.fromPeer ++ [ev] = strand.events := by
    intro live
    simpa [turn, Carrier.load] using faithful.complete live reg
  refine { faithful with
    unseen := fun none => absurd none (faithful.seen (by simp [turn])), loaded := ?_
    sent := ?_, complete := fun live _ => all live, cleaned := ?_ }
  · simpa [turn, Carrier.load] using faithful.loaded
  · rintro live other ⟨⟩
    rw [← all live]
    exact prefix_rfl
  · rintro _ _ ⟨⟩

theorem dispose (busy : strand.carrier ≠ .idle)
    (unwanted : strand.isOpen = true → strand.registered = false) :
    Faithful id { strand with carrier := .after ev } := by
  refine { faithful with
    unseen := fun none => absurd none (faithful.seen busy), loaded := by simp
    sent := ?_, complete := ?_, cleaned := ?_ }
  · exact fun _ other sending => absurd sending (Carrier.after_ne_sending ev other)
  · intro live reg
    simp [unwanted live] at reg
  · intro live reg
    simp [unwanted live] at reg

theorem deliver (turn : strand.carrier = .sending ev) (live : strand.isOpen = true) : Faithful id
      { strand with carrier := .after ev, delivered := strand.delivered ++ [.peer ev] } := by
  have named : ev.actionId = id := faithful.loaded ev (by simp [turn, Carrier.load])
  have peers : (strand.delivered ++ [Item.peer ev]).filterMap Item.fromPeer =
      strand.fromPeer ++ [ev] := by
    rw [filterMap_append]
    rfl
  refine ⟨?_, fun none => absurd none (faithful.seen (by simp [turn])), ?_, by simp, ?_, ?_, ?_,
    ?_, ?_, ?_⟩
  · intro new
    simp [faithful.issued live] at new
  · intro item mem
    rcases mem_append.mp mem with prior | last
    · exact faithful.names item prior
    · rw [mem_singleton.mp last]
      exact named
  · rw [fromPeer, peers]
    exact faithful.sent live ev turn
  · exact fun _ other sending => absurd sending (Carrier.after_ne_sending ev other)
  · intro _ reg
    rw [fromPeer, peers, Carrier.after_load, append_nil]
    simpa [turn, Carrier.load] using faithful.complete live reg
  · intro _ _ cleaning
    exact ⟨.peer ev, by simp, Carrier.isTerminal_of_after cleaning⟩
  · exact fun _ unregistered free => (faithful.settled live unregistered free).append _
  · exact fun ended => (faithful.terminated ended).take_append _

theorem cleanUp (turn : strand.carrier = .cleaning) :
    Faithful id { strand with carrier := .idle, registered := false } := by
  refine { faithful with
    unissued := ?_, unseen := fun _ => rfl, loaded := by simp [Carrier.load], sent := ?_
    complete := ?_, cleaned := ?_, settled := ?_ }
  · exact fun new => ⟨rfl, (faithful.unissued new).2⟩
  · rintro _ _ ⟨⟩
  · rintro _ ⟨⟩
  · rintro _ ⟨⟩
  · intro live _ free
    rcases reg : strand.registered with _ | _
    · exact faithful.settled live reg free
    · exact faithful.cleaned live reg turn

theorem register (unseen : strand.events = []) : Faithful id
      { strand with
        issued := true, registered := true, delivered := [], taken := 0, isOpen := true
        ended := false } := by
  have idle := faithful.unseen unseen
  refine ⟨by rintro ⟨⟩, faithful.unseen, by simp, faithful.loaded, nil_prefix, ?_, ?_, ?_,
    by rintro _ ⟨⟩, by rintro ⟨⟩⟩
  · intro _ ev sending
    cases idle.symm.trans sending
  · intro _ _
    simp [fromPeer, idle, Carrier.load, unseen]
  · intro _ _ cleaning
    cases idle.symm.trans cleaning

theorem drain (party : Party) (free : strand.owedBy party = false) : Faithful id
      { strand with
        registered := false
        owedBy := update strand.owedBy party strand.registered } := by
  refine { faithful with
    unissued := ?_, complete := by rintro _ ⟨⟩, cleaned := by rintro _ ⟨⟩, settled := ?_ }
  · intro new
    rcases faithful.unissued new with ⟨unregistered, empty, closed, unended, unowed⟩
    refine ⟨rfl, empty, closed, unended, ?_⟩
    intro other
    by_cases same : other = party
    · simp [same, unregistered]
    · simp [update_of_ne same, unowed]
  · intro live _ settled
    have unregistered : strand.registered = false := by simpa using settled party
    apply faithful.settled live unregistered
    intro other
    by_cases same : other = party
    · rw [same, free]
    · simpa [update_of_ne same] using settled other

theorem notify (party : Party) (kind : String) (live : strand.isOpen = true) : Faithful id
      { strand with
        owedBy := update strand.owedBy party false
        delivered := strand.delivered ++ [.crash (crashError kind id)] } := by
  have peers : (strand.delivered ++ [Item.crash (crashError kind id)]).filterMap
      Item.fromPeer = strand.fromPeer := by
    rw [filterMap_append]
    exact append_nil _
  have terminal : Terminated (strand.delivered ++ [Item.crash (crashError kind id)]) :=
    ⟨.crash (crashError kind id), by simp, rfl⟩
  refine ⟨?_, faithful.unseen, ?_, faithful.loaded, ?_, ?_, ?_, fun _ _ _ => terminal,
    fun _ _ _ => terminal, fun ended => (faithful.terminated ended).take_append _⟩
  · intro new
    simp [faithful.issued live] at new
  · intro item mem
    rcases mem_append.mp mem with prior | last
    · exact faithful.names item prior
    · rw [mem_singleton.mp last]
      rfl
  · rw [fromPeer, peers]
    exact faithful.ordered
  · rw [fromPeer, peers]
    exact faithful.sent
  · rw [fromPeer, peers]
    exact faithful.complete

theorem forgo (party : Party) (closed : strand.isOpen = false) : Faithful id
      { strand with owedBy := update strand.owedBy party false } := by
  refine { faithful with unissued := ?_, settled := ?_ }
  · intro new
    rcases faithful.unissued new with ⟨unregistered, empty, closed, unended, unowed⟩
    refine ⟨unregistered, empty, closed, unended, ?_⟩
    intro other
    by_cases same : other = party
    · simp [same]
    · simp [update_of_ne same, unowed]
  · intro live
    simp [closed] at live

theorem take : Faithful id { strand with taken := strand.taken + 1 } := by
  refine { faithful with terminated := ?_ }
  intro ended
  rcases faithful.terminated ended with ⟨item, mem, terminal⟩
  exact ⟨item, (take_subset_take_left _ (Nat.le_succ _)) mem, terminal⟩

theorem finish (live : strand.isOpen = true)
    (empty : strand.taken = strand.delivered.length) (unregistered : strand.registered = false)
    (settled : ∀ party, strand.owedBy party = false) :
    Faithful id { strand with ended := true } := by
  refine { faithful with unissued := ?_, terminated := ?_ }
  · intro new
    simp [faithful.issued live] at new
  · intro _
    rw [empty, take_length]
    exact faithful.settled live unregistered settled

theorem close : Faithful id { strand with isOpen := false } := by
  refine { faithful with
    unissued := ?_, sent := by rintro ⟨⟩, complete := by rintro ⟨⟩, cleaned := by rintro ⟨⟩
    settled := by rintro ⟨⟩ }
  intro new
  rcases faithful.unissued new with ⟨unregistered, empty, -, rest⟩
  exact ⟨unregistered, empty, rfl, rest⟩

theorem step (step : Step id calm strand strand') : Faithful id strand' := by
  cases step with
  | stay => exact faithful
  | receive ev idle names => exact faithful.receive idle names
  | find ev turn reg => exact faithful.find turn reg
  | miss ev turn unregistered => exact faithful.dispose (by simp [turn]) fun _ => unregistered
  | deliver ev turn live => exact faithful.deliver turn live
  | discard ev turn closed => exact faithful.dispose (by simp [turn]) (by simp [closed])
  | cleanUp turn => exact faithful.cleanUp turn
  | register new unseen => exact faithful.register unseen
  | drain party idle undisturbed free => exact faithful.drain party free
  | notify party kind owed live => exact faithful.notify party kind live
  | forgo party owed closed => exact faithful.forgo party closed
  | take avail => exact faithful.take
  | finish live empty unregistered settled unsent =>
    exact faithful.finish live empty unregistered settled
  | close => exact faithful.close

end Receiving

end Faithful

/-- Nothing follows a terminal item. -/
def EndsOnce (items : List Item) : Prop :=
  ∀ before item after, items = before ++ item :: after → item.isTerminal = true → after = []

theorem endsOnce_concat (item : Item) (running : ¬Terminated items) :
    EndsOnce (items ++ [item]) := by
  intro pre other post split terminal
  rcases append_eq_append_iff.mp split with ⟨mid, -, rest⟩ | ⟨mid, cut, rest⟩
  · rcases mid with _ | _
    · rw [nil_append, List.cons.injEq] at rest
      exact rest.2.symm
    · simp at rest
  · rcases mid with _ | _
    · rw [nil_append, List.cons.injEq] at rest
      exact rest.2
    · rw [cons_append, List.cons.injEq] at rest
      exact absurd ⟨other, by simp [cut, rest.1], terminal⟩ running

theorem EndsOnce.of_isPrefix {some : List Item} (once : EndsOnce items) (part : some <+: items) :
    EndsOnce some := by
  intro pre item post split terminal
  rcases part with ⟨rest, rfl⟩
  rw [split, append_assoc, cons_append] at once
  exact (append_eq_nil_iff.mp (once pre item (post ++ rest) rfl terminal)).1

structure Orderly (strand : Strand) : Prop where
  once : EndsOnce strand.delivered
  running : strand.registered = true → strand.carrier ≠ .cleaning → ¬Terminated strand.delivered
  owed : ∀ party, strand.owedBy party = true →
    strand.registered = false ∧ ¬Terminated strand.delivered
  single : ∀ party other, strand.owedBy party = true → strand.owedBy other = true → party = other
  sending : ∀ event, strand.carrier = .sending event → strand.registered = true

namespace Orderly

section Delivering

variable (ord : Orderly strand)

include ord

theorem deliver {ev : StreamEvent} (turn : strand.carrier = .sending ev) : Orderly
      { strand with carrier := .after ev, delivered := strand.delivered ++ [.peer ev] } := by
  have reg := ord.sending ev turn
  have running := ord.running reg (by simp [turn])
  refine ⟨endsOnce_concat _ running, ?_, ?_, ord.single, ?_⟩
  · rintro _ unclean ⟨item, mem, terminal⟩
    rcases mem_append.mp mem with prior | last
    · exact running ⟨item, prior, terminal⟩
    · rw [mem_singleton.mp last] at terminal
      exact unclean (if_pos terminal)
  · intro party owed
    have unregistered := (ord.owed party owed).1
    simp [reg] at unregistered
  · exact fun other sending => absurd sending (Carrier.after_ne_sending ev other)

theorem drain {party : Party} (idle : party = .reader → strand.carrier = .idle)
    (undisturbed : party = .writer → strand.Undisturbed) :
    Orderly
      { strand with
        registered := false
        owedBy := update strand.owedBy party strand.registered } := by
  have calm : strand.Undisturbed := by
    cases party with
    | reader => exact ⟨by simp [idle rfl], by simp [idle rfl]⟩
    | writer => exact undisturbed rfl
  have others : strand.registered = true → ∀ other, strand.owedBy other = false := by
    intro reg other
    by_contra owed
    have unregistered := (ord.owed other (by simpa using owed)).1
    simp [reg] at unregistered
  refine ⟨ord.once, by rintro ⟨⟩, ?_, ?_, ?_⟩
  · intro other owed
    refine ⟨rfl, ?_⟩
    by_cases same : other = party
    · simp only [same, update_self] at owed
      apply ord.running owed
      intro cleaning
      simp [calm.2 cleaning] at owed
    · simp only [update_of_ne same] at owed
      exact (ord.owed other owed).2
  · intro first second owed owed'
    by_cases reg : strand.registered = true
    · have only (other : Party) (owed : update strand.owedBy party strand.registered other = true) :
          other = party := by
        by_contra ne
        simp [update_of_ne ne, others reg] at owed
      rw [only first owed, only second owed']
    · have same : update strand.owedBy party strand.registered ≤ strand.owedBy := by
        intro other
        by_cases same : other = party
        · simp [same, reg]
        · simp [update_of_ne same]
      exact ord.single first second (same first owed) (same second owed')
  · exact fun ev sending => absurd sending (calm.1 ev)

theorem notify {party : Party} (owed : strand.owedBy party = true) (item : Item) : Orderly
      { strand with
        owedBy := update strand.owedBy party false
        delivered := strand.delivered ++ [item] } := by
  rcases ord.owed party owed with ⟨unregistered, running⟩
  have settled (other : Party) : update strand.owedBy party false other = false := by
    by_cases same : other = party
    · simp [same]
    · rw [update_of_ne same]
      by_contra owed'
      exact same (ord.single other party (by simpa using owed') owed)
  refine ⟨endsOnce_concat item running, ?_, ?_, ?_, ord.sending⟩
  · intro reg
    simp [unregistered] at reg
  · intro other owed'
    simp [settled other] at owed'
  · intro first second owed'
    simp [settled first] at owed'

theorem forgo (party : Party) :
    Orderly { strand with owedBy := update strand.owedBy party false } := by
  have fewer (other : Party) (owed : update strand.owedBy party false other = true) :
      strand.owedBy other = true := by
    by_cases same : other = party
    · simp [same] at owed
    · rwa [update_of_ne same] at owed
  exact ⟨ord.once, ord.running, fun other owed => ord.owed other (fewer other owed),
    fun first second owed owed' => ord.single first second (fewer first owed)
      (fewer second owed'), ord.sending⟩

theorem step (faithful : Faithful id strand)
    (step : Step id True strand strand') : Orderly strand' := by
  cases step with
  | stay => exact ord
  | receive ev idle names =>
    refine { ord with running := ?_, sending := by rintro _ ⟨⟩ }
    exact fun reg _ => ord.running reg (by simp [idle])
  | find ev turn reg =>
    refine { ord with running := ?_, sending := fun _ _ => reg }
    exact fun reg _ => ord.running reg (by simp [turn])
  | miss ev turn unregistered =>
    refine { ord with running := ?_, sending := ?_ }
    · intro reg
      simp [unregistered] at reg
    · exact fun other sending => absurd sending (Carrier.after_ne_sending ev other)
  | deliver ev turn live => exact ord.deliver turn
  | discard ev turn closed =>
    refine { ord with running := ?_, sending := ?_ }
    · exact fun reg _ => ord.running reg (by simp [turn])
    · exact fun other sending => absurd sending (Carrier.after_ne_sending ev other)
  | cleanUp turn =>
    refine { ord with running := by rintro ⟨⟩, owed := ?_, sending := by rintro _ ⟨⟩ }
    exact fun party owed => ⟨rfl, (ord.owed party owed).2⟩
  | register new unseen =>
    have unowed := (faithful.unissued new).2.2.2.2
    refine ⟨by simp [EndsOnce], by simp [Terminated], ?_, ?_, fun _ _ => rfl⟩
    · intro party owed
      simp [unowed party] at owed
    · intro party other owed
      simp [unowed party] at owed
  | drain party idle undisturbed free => exact ord.drain idle (undisturbed trivial)
  | notify party kind owed live => exact ord.notify owed _
  | forgo party owed closed => exact ord.forgo party
  | take avail => exact { ord with }
  | finish live empty unregistered settled unsent => exact { ord with }
  | close => exact { ord with }

end Delivering

end Orderly

end Strand

end Barista.Ipc
