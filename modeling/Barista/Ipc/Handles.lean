import Barista.Ipc.Strand

/-!
# What a handle gets to see

Every step of the multiplexer is a step of each of its actions, or does not concern it.  So what
holds of one action along all of its steps holds of every action of a connection.
-/

namespace Barista.Ipc

open List Function Reader

namespace Reader

def carrierOf (actionId : String) : Reader → Carrier
  | routing event => if event.actionId = actionId then .routing event else .idle
  | sending event => if event.actionId = actionId then .sending event else .idle
  | cleaning other => if other = actionId then .cleaning else .idle
  | _ => .idle

variable {id : String} {ev : StreamEvent}

theorem carrierOf_afterRoute (names : ev.actionId = id) :
    (afterRoute ev).carrierOf id = .after ev := by
  rw [afterRoute, Carrier.after]
  split_ifs
  · exact if_pos names
  · rfl

theorem carrierOf_afterRoute_of_ne (names : ev.actionId ≠ id) :
    (afterRoute ev).carrierOf id = .idle := by
  rw [afterRoute]
  split_ifs
  · exact if_neg names
  · rfl

theorem eq_of_carrierOf_sending {reader : Reader}
    (sending : reader.carrierOf id = .sending ev) : reader = .sending ev ∧ ev.actionId = id := by
  cases reader with
  | sending other =>
    rw [carrierOf] at sending
    split_ifs at sending with names
    cases sending
    exact ⟨rfl, names⟩
  | routing other | cleaning other =>
    rw [carrierOf] at sending
    split_ifs at sending
  | _ => simp [carrierOf] at sending

end Reader

namespace Mux

variable {mux mux' : Mux} {id : String} {calm : Prop}

def strand (mux : Mux) (actionId : String) : Strand where
  issued := actionId ∈ mux.issued
  registered := actionId ∈ mux.clients
  carrier := mux.reader.carrierOf actionId
  owedBy := fun party => actionId ∈ mux.owed party
  events := eventsFor actionId mux.received
  delivered := (mux.channels actionId).yielded ++ (mux.channels actionId).buffered
  taken := (mux.channels actionId).yielded.length
  isOpen := (mux.channels actionId).isOpen
  ended := (mux.channels actionId).ended

structure WellFormed (mux : Mux) : Prop where
  clients : mux.clients.Nodup
  issued : ∀ actionId ∈ mux.clients, actionId ∈ mux.issued
  owed : ∀ party, (mux.owed party).Nodup
  named : "" ∉ mux.issued

abbrev Moves (id : String) (calm : Prop) (mux mux' : Mux) : Prop :=
  Strand.Step id calm (mux.strand id) (mux'.strand id)

theorem eventsFor_concat (frames : List (Option Body)) (body : Option Body) :
    eventsFor id (frames ++ [body]) = eventsFor id frames ++ eventsFor id [body] := by
  rw [eventsFor, filterMap_append]
  rfl

theorem dispatch_cases (named : id ≠ "") (body : Option Body) :
    (∃ ev, ev.actionId = id ∧ eventsFor id [body] = [ev] ∧
      (dispatch body).carrierOf id = .routing ev) ∨
    (eventsFor id [body] = [] ∧ (dispatch body).carrierOf id = .idle) := by
  rcases body with _ | ⟨other⟩ | ⟨ev⟩ | ⟨other⟩ | _
  · exact .inr ⟨rfl, rfl⟩
  · exact .inr ⟨rfl, rfl⟩
  · by_cases names : ev.actionId = id
    · refine .inl ⟨ev, names, by simp [eventsFor, names], ?_⟩
      cases ev with
      | error err =>
        have ne : err.actionId ≠ "" := fun empty => named (names.symm.trans empty)
        simp only [dispatch, ne, ↓reduceIte, carrierOf, names]
      | progress other payload | stream other payload | result other payload =>
        simp [dispatch, carrierOf, names]
    · refine .inr ⟨by simp [eventsFor, names], ?_⟩
      cases ev with
      | error err =>
        rw [dispatch]
        split_ifs
        · rfl
        · exact if_neg names
      | progress other payload => exact if_neg names
      | stream other payload => exact if_neg names
      | result other payload => exact if_neg names
  · exact .inr ⟨rfl, rfl⟩
  · exact .inr ⟨rfl, rfl⟩

theorem pending_dispatch (body : Option Body) : (dispatch body).pending = [] := by
  rcases body with _ | ⟨other⟩ | ⟨ev⟩ | ⟨other⟩ | _
  · rfl
  · rfl
  · cases ev with
    | error err =>
      rw [dispatch]
      split_ifs <;> rfl
    | progress other payload => rfl
    | stream other payload => rfl
    | result other payload => rfl
  · rfl
  · rfl

theorem pending_afterRoute (ev : StreamEvent) : (afterRoute ev).pending = [] := by
  rw [afterRoute]
  split_ifs <;> rfl

theorem strand_of {view : Strand} (issued : decide (id ∈ mux.issued) = view.issued)
    (reg : decide (id ∈ mux.clients) = view.registered)
    (carrier : mux.reader.carrierOf id = view.carrier)
    (readerOwes : decide (id ∈ mux.reader.pending) = view.owedBy .reader)
    (writerOwes : decide (id ∈ mux.writer.pending) = view.owedBy .writer)
    (events : eventsFor id mux.received = view.events)
    (delivered : (mux.channels id).yielded ++ (mux.channels id).buffered = view.delivered)
    (taken : (mux.channels id).yielded.length = view.taken)
    (isOpen : (mux.channels id).isOpen = view.isOpen)
    (ended : (mux.channels id).ended = view.ended) : mux.strand id = view := by
  refine Strand.ext issued reg carrier ?_ events delivered taken isOpen ended
  funext party
  cases party with
  | reader => exact readerOwes
  | writer => exact writerOwes

theorem stay (issued : id ∈ mux'.issued ↔ id ∈ mux.issued)
    (reg : id ∈ mux'.clients ↔ id ∈ mux.clients)
    (carrier : mux'.reader.carrierOf id = mux.reader.carrierOf id)
    (readerOwes : id ∈ mux'.reader.pending ↔ id ∈ mux.reader.pending)
    (writerOwes : id ∈ mux'.writer.pending ↔ id ∈ mux.writer.pending)
    (events : eventsFor id mux'.received = eventsFor id mux.received)
    (channel : mux'.channels id = mux.channels id) :
    Moves id calm mux mux' := by
  have same : mux'.strand id = mux.strand id := by
    refine strand_of (decide_eq_decide.mpr issued) (decide_eq_decide.mpr reg) carrier
      (decide_eq_decide.mpr readerOwes) (decide_eq_decide.mpr writerOwes) events ?_ ?_ ?_ ?_ <;>
    rw [channel] <;> rfl
  rw [Moves, same]
  exact .stay

variable {cause : Wire.TransportError} {order : List String} {ending : Ending} {party : Party}
  {other : String}

theorem strand_reader (mux : Mux) (reader : Reader) (pre : mux.reader.pending = [])
    (post : reader.pending = []) :
    strand { mux with reader } id = { mux.strand id with carrier := reader.carrierOf id } :=
  strand_of rfl rfl rfl (by simp only [strand, owed, pre, post]) rfl rfl rfl rfl rfl rfl

theorem strand_setChannel (mux : Mux) (id : String) (channel : Channel) :
    (mux.setChannel id channel).strand id =
      { mux.strand id with
        delivered := channel.yielded ++ channel.buffered, taken := channel.yielded.length
        isOpen := channel.isOpen, ended := channel.ended } := by
  apply strand_of rfl rfl rfl rfl rfl rfl
  all_goals simp [setChannel]

theorem strand_setChannel_of_ne (channel : Channel) (names : other ≠ id) :
    (mux.setChannel other channel).strand id = mux.strand id := by
  have kept : (mux.setChannel other channel).channels id = mux.channels id :=
    update_of_ne (Ne.symm names) _ _
  apply strand_of rfl rfl rfl rfl rfl rfl
  all_goals
    rw [kept]
    rfl

theorem step_receive (named : id ≠ "") {body : Option Body}
    (taken : mux.step (.receive body) = some mux') :
    Moves id calm mux mux' := by
  simp only [step] at taken
  split_ifs at taken with waiting
  cases taken
  have idle : mux.reader.carrierOf id = .idle := by simp [waiting, carrierOf]
  have unowed : mux.reader.pending = [] := by simp [waiting, pending]
  rcases dispatch_cases named body with ⟨ev, names, events, carrier⟩ | ⟨events, carrier⟩
  · have moved : strand { mux with reader := .dispatch body, received := mux.received ++ [body] }
        id =
        { mux.strand id with
          carrier := .routing ev, events := (mux.strand id).events ++ [ev] } :=
      strand_of rfl rfl carrier (by simp [pending_dispatch, strand, owed, unowed]) rfl
        (by rw [eventsFor_concat, events]; rfl) rfl rfl rfl rfl
    rw [Moves, moved]
    exact .receive ev idle names
  · apply stay
    · rfl
    · rfl
    · rw [idle, carrier]
    · rw [pending_dispatch, unowed]
    · rfl
    · rw [eventsFor_concat, events, append_nil]
    · rfl

theorem step_lookUp (taken : mux.step .lookUp = some mux') : Moves id calm mux mux' := by
  simp only [step] at taken
  cases reader : mux.reader with
  | routing ev =>
    simp only [reader, Option.some.injEq] at taken
    cases taken
    have unowed : mux.reader.pending = [] := by rw [reader]; rfl
    by_cases names : ev.actionId = id
    · have turn : (mux.strand id).carrier = .routing ev := by
        simp [strand, reader, carrierOf, names]
      by_cases reg : ev.actionId ∈ mux.clients
      · rw [if_pos reg, Moves, strand_reader mux (.sending ev) unowed rfl, carrierOf, if_pos names]
        exact .find ev turn (by simpa [strand, names] using reg)
      · rw [if_neg reg, Moves, strand_reader mux _ unowed (pending_afterRoute ev),
          carrierOf_afterRoute names]
        exact .miss ev turn (by simpa [strand, names] using reg)
    · have idle : (mux.strand id).carrier = .idle := by
        simp [strand, reader, carrierOf, names]
      split_ifs
      · rw [Moves, strand_reader mux (.sending ev) unowed rfl, carrierOf, if_neg names, ← idle]
        exact .stay
      · rw [Moves, strand_reader mux _ unowed (pending_afterRoute ev),
          carrierOf_afterRoute_of_ne names, ← idle]
        exact .stay
  | _ => simp [reader] at taken

theorem step_deliver (taken : mux.step .deliver = some mux') : Moves id calm mux mux' := by
  simp only [step] at taken
  cases reader : mux.reader with
  | sending ev =>
    simp only [reader] at taken
    split_ifs at taken
    cases taken
    have unowed : mux.reader.pending = [] := by rw [reader]; rfl
    by_cases names : ev.actionId = id
    · subst names
      have turn : (mux.strand ev.actionId).carrier = .sending ev := by
        simp [strand, reader, carrierOf]
      rcases live : (mux.channels ev.actionId).isOpen with _ | _
      · rw [Channel.send_of_closed live, setChannel, update_eq_self, Moves,
          strand_reader mux _ unowed (pending_afterRoute ev), carrierOf_afterRoute rfl]
        exact .discard ev turn live
      · rw [Moves, strand_reader (mux.setChannel _ _) _ unowed (pending_afterRoute ev),
          carrierOf_afterRoute rfl, strand_setChannel]
        convert Strand.Step.deliver ev turn live using 2
        · simp [Channel.buffered_send live, strand]
        all_goals simp [strand]
    · have idle : (mux.strand id).carrier = .idle := by
        simp [strand, reader, carrierOf, names]
      rw [Moves, strand_reader (mux.setChannel _ _) _ unowed (pending_afterRoute ev),
        carrierOf_afterRoute_of_ne names, strand_setChannel_of_ne _ names, ← idle]
      exact .stay
  | _ => simp [reader] at taken

theorem step_cleanUp (taken : mux.step .cleanUp = some mux') : Moves id calm mux mux' := by
  simp only [step] at taken
  cases reader : mux.reader with
  | cleaning other =>
    simp only [reader, Option.some.injEq] at taken
    cases taken
    have unowed : mux.reader.pending = [] := by rw [reader]; rfl
    by_cases names : other = id
    · subst names
      have turn : (mux.strand other).carrier = .cleaning := by
        simp [strand, reader, carrierOf]
      have moved : strand
          { mux.setChannel other
              (if other ∈ mux.clients then (mux.channels other).flag else mux.channels other) with
            reader := .waiting
            clients := mux.clients.filter (· ≠ other)
            servers := mux.servers.filter (· ≠ other) } other =
          { mux.strand other with carrier := .idle, registered := false } := by
        apply strand_of rfl (by simp) rfl (by simp only [strand, owed, unowed]; rfl) rfl rfl
        all_goals
          simp only [setChannel, update_self]
          split_ifs <;> rfl
      rw [Moves, moved]
      exact .cleanUp turn
    · apply stay
      · rfl
      · simp [Ne.symm names]
      · simp [reader, carrierOf, names]
      · simp only [unowed]
        rfl
      · rfl
      · rfl
      · exact update_of_ne (Ne.symm names) _ _
  | _ => simp [reader] at taken

theorem mem_of_isPerm {clients : List String} (perm : order.isPerm clients = true)
    (id : String) : id ∈ order ↔ id ∈ clients :=
  (isPerm_iff.mp perm).mem_iff

theorem mem_pending_endingAfter (perm : order.isPerm mux.clients = true) :
    id ∈ (mux.endingAfter cause order).pending ↔ id ∈ mux.clients := by
  rw [endingAfter]
  rcases kind : mux.effectiveKind cause with _ | _
  · have empty : mux.clients = [] := by
      by_contra inflight
      rw [effectiveKind, if_neg inflight] at kind
      cases crash : crashKind cause <;> simp [crash] at kind
    simp [empty, Ending.pending]
  · exact mem_of_isPerm perm id

theorem carrier_of_ending (ends : mux.endingOf .reader = some ending) :
    mux.reader.carrierOf id = .idle := by
  cases reader : mux.reader with
  | ending st => rfl
  | _ => simp [endingOf, reader] at ends

theorem owed_of_ending (ends : mux.endingOf party = some ending) :
    mux.owed party = ending.pending := by
  cases party with
  | reader =>
    cases reader : mux.reader with
    | ending st =>
      simp only [endingOf, reader, Option.some.injEq] at ends
      rw [owed, reader, ends]
      rfl
    | _ => simp [endingOf, reader] at ends
  | writer =>
    cases writer : mux.writer with
    | ending st =>
      simp only [endingOf, writer, Option.some.injEq] at ends
      rw [owed, writer, ends]
      rfl
    | _ => simp [endingOf, writer] at ends

theorem strand_setEnding {last : Ending} (ends : mux.endingOf party = some ending) :
    (mux.setEnding last party).strand id =
      { mux.strand id with
        owedBy := update (mux.strand id).owedBy party (id ∈ last.pending) } := by
  cases party with
  | reader =>
    have idle : (mux.strand id).carrier = .idle := carrier_of_ending ends
    exact strand_of rfl rfl idle.symm rfl rfl rfl rfl rfl rfl rfl
  | writer => exact strand_of rfl rfl rfl rfl rfl rfl rfl rfl rfl rfl

theorem endingOf_setChannel {channel : Channel} (party : Party) :
    (mux.setChannel id channel).endingOf party = mux.endingOf party := by
  cases party <;> rfl

theorem eq_of_shutDown (taken : mux.step (.shutDown party order) = some mux') :
    ∃ cause, mux.endingOf party = some (.closing cause) ∧ order.isPerm mux.clients = true ∧
      mux' = mux.shutDown party cause order := by
  simp only [step] at taken
  split at taken
  · rename_i cause ends
    split_ifs at taken with perm
    cases taken
    exact ⟨cause, ends, perm, rfl⟩
  · cases taken

theorem eq_of_notify (taken : mux.step (.notify party) = some mux') :
    ∃ kind first rest, mux.endingOf party = some (.notifying kind (first :: rest)) ∧
      mux' = (mux.setChannel first ((mux.channels first).send
        (.crash (crashError kind first))).flag).setEnding (.notifying kind rest) party := by
  simp only [step] at taken
  split at taken
  · rename_i kind first rest ends
    split_ifs at taken
    cases taken
    exact ⟨kind, first, rest, ends, rfl⟩
  · cases taken

theorem eq_of_finish (taken : mux.step (.finish party) = some mux') :
    ∃ kind, mux.endingOf party = some (.notifying kind []) ∧
      mux' = mux.setEnding .stopped party := by
  simp only [step] at taken
  split at taken
  · rename_i kind ends
    cases taken
    exact ⟨kind, ends, rfl⟩
  · cases taken

theorem step_shutDown (taken : mux.step (.shutDown party order) = some mux')
    (undisturbed : calm → party = .writer → (mux.strand id).Undisturbed) :
    Moves id calm mux mux' := by
  rcases eq_of_shutDown taken with ⟨cause, ends, perm, rfl⟩
  have ends' : endingOf { mux with clients := [], servers := [], shutdown := true } party =
      some (.closing cause) := by
    rw [← ends]
    cases party <;> rfl
  have moved : (mux.shutDown party cause order).strand id =
      { mux.strand id with
        registered := false
        owedBy := update (mux.strand id).owedBy party (mux.strand id).registered } := by
    rw [shutDown, strand_setEnding ends']
    simp only [strand, mem_pending_endingAfter perm, not_mem_nil, decide_false]
    rfl
  rw [Moves, moved]
  apply Strand.Step.drain party _ undisturbed
  · simp [strand, owed_of_ending ends, Ending.pending]
  · rintro rfl
    exact carrier_of_ending ends

theorem step_notify (wf : mux.WellFormed) (taken : mux.step (.notify party) = some mux') :
    Moves id calm mux mux' := by
  rcases eq_of_notify taken with ⟨kind, first, rest, ends, rfl⟩
  have owes := owed_of_ending ends
  have once : first ∉ rest := by
    have nodup := wf.owed party
    rw [owes] at nodup
    exact (nodup_cons.mp nodup).1
  rw [Moves, strand_setEnding ((endingOf_setChannel party).trans ends)]
  by_cases names : first = id
  · subst names
    have owed : (mux.strand first).owedBy party = true := by
      simp [strand, owes, Ending.pending]
    have done : decide (first ∈ (Ending.notifying kind rest).pending) = false := by
      exact decide_eq_false once
    rw [strand_setChannel, done]
    rcases live : (mux.channels first).isOpen with _ | _
    · rw [Channel.send_of_closed live]
      exact Strand.Step.forgo party owed live
    · convert Strand.Step.notify party kind owed live using 2
      · simp [Channel.flag, Channel.buffered_send live, strand]
      · simp [Channel.flag, strand]
      · exact Channel.isOpen_send
      · exact Channel.ended_send
  · have same : update (mux.strand id).owedBy party
        (id ∈ (Ending.notifying kind rest).pending) = (mux.strand id).owedBy := by
      rw [update_eq_self_iff]
      apply decide_eq_decide.mpr
      rw [owes]
      simp [Ending.pending, Ne.symm names]
    rw [strand_setChannel_of_ne _ names, same]
    exact .stay

theorem step_finish (taken : mux.step (.finish party) = some mux') : Moves id calm mux mux' := by
  rcases eq_of_finish taken with ⟨kind, ends, rfl⟩
  have same : update (mux.strand id).owedBy party
      (id ∈ Ending.stopped.pending) = (mux.strand id).owedBy := by
    rw [update_eq_self_iff]
    simp [strand, owed_of_ending ends, Ending.pending]
  rw [Moves, strand_setEnding ends, same]
  exact .stay

theorem strand_enqueue (body : Body) : (mux.enqueue body).strand id = mux.strand id := by
  rw [enqueue]
  split_ifs <;> rfl

def Act.isAside : Act → Bool
  | .loseConnection _ | .registerServer | .accept | .transmit | .failToTransmit _ | .retire
  | .nextAction | .closeServer | .respond _ => true
  | _ => false

structure Aside (mux mux' : Mux) : Prop where
  clients : mux'.clients = mux.clients
  issued : mux'.issued = mux.issued
  received : mux'.received = mux.received
  channels : mux'.channels = mux.channels
  carrier : ∀ id, mux'.reader.carrierOf id = mux.reader.carrierOf id
  reader : mux'.reader.pending = mux.reader.pending
  writer : mux'.writer.pending = mux.writer.pending

theorem aside_of_step {act : Act} (isAside : Act.isAside act = true)
    (taken : mux.step act = some mux') : Aside mux mux' := by
  cases act with
  | loseConnection cause =>
    simp only [step] at taken
    split_ifs at taken with waiting
    cases taken
    exact ⟨rfl, rfl, rfl, rfl, fun _ => by rw [waiting]; rfl, by rw [waiting]; rfl, rfl⟩
  | registerServer | accept =>
    simp only [step] at taken
    split at taken
    · rename_i reader
      split_ifs at taken <;> cases taken <;>
        exact ⟨rfl, rfl, rfl, rfl, fun _ => by rw [reader]; rfl, by rw [reader]; rfl, rfl⟩
    · cases taken
  | transmit | nextAction =>
    simp only [step] at taken
    split at taken
    · cases taken
      exact ⟨rfl, rfl, rfl, rfl, fun _ => rfl, rfl, rfl⟩
    · cases taken
  | failToTransmit cause | retire =>
    simp only [step] at taken
    split at taken
    · rename_i writer _
      cases taken
      exact ⟨rfl, rfl, rfl, rfl, fun _ => rfl, rfl, by rw [writer]; rfl⟩
    · cases taken
  | closeServer =>
    cases taken
    exact ⟨rfl, rfl, rfl, rfl, fun _ => rfl, rfl, rfl⟩
  | respond body =>
    simp only [step] at taken
    split_ifs at taken
    cases taken
    rw [enqueue]
    split_ifs
    all_goals exact ⟨rfl, rfl, rfl, rfl, fun _ => rfl, rfl, rfl⟩
  | _ => cases isAside

theorem Aside.step (aside : Aside mux mux') : Moves id calm mux mux' := by
  apply stay
  · rw [aside.issued]
  · rw [aside.clients]
  · exact aside.carrier id
  · rw [aside.reader]
  · rw [aside.writer]
  · rw [aside.received]
  · rw [aside.channels]

theorem step_submit (taken : mux.step (.submit other) = some mux') : Moves id calm mux mux' := by
  simp only [step] at taken
  split_ifs at taken with admitted
  cases taken
  rcases admitted with ⟨fresh, -⟩
  simp only [Mux.fresh, decide_eq_true_eq] at fresh
  rcases fresh with ⟨-, new, unseen⟩
  by_cases names : other = id
  · subst names
    have moved : strand { mux.setChannel other { Channel.absent with receiver := .submitting } with
          clients := mux.clients ++ [other]
          issued := other :: mux.issued } other =
        { mux.strand other with
          issued := true, registered := true, delivered := [], taken := 0, isOpen := true
          ended := false } := by
      apply strand_of (by simp) (by simp) rfl rfl rfl rfl
      all_goals
        simp only [setChannel, update_self]
        rfl
    rw [Moves, moved]
    exact .register (decide_eq_false new) unseen
  · apply stay
    · simp [Ne.symm names]
    · simp [Ne.symm names]
    · rfl
    · rfl
    · rfl
    · rfl
    · exact update_of_ne (Ne.symm names) _ _

theorem step_setChannel {channel : Channel} {view : Strand}
    (moved : (mux.setChannel other channel).strand other = view)
    (step : Strand.Step other calm (mux.strand other) view) :
    Moves id calm mux (mux.setChannel other channel) := by
  by_cases names : other = id
  · subst names
    rw [Moves, moved]
    exact step
  · rw [Moves, strand_setChannel_of_ne _ names]
    exact .stay

theorem step_request (taken : mux.step (.request other) = some mux') : Moves id calm mux mux' := by
  simp only [step] at taken
  split_ifs at taken with admitted
  cases taken
  have live : (mux.channels other).isOpen = true := by simp [Channel.isOpen, admitted.1]
  have same : (mux.setChannel other { mux.channels other with receiver := .live }).strand other =
      mux.strand other := by
    rw [strand_setChannel]
    exact Strand.ext rfl rfl rfl rfl rfl rfl rfl live.symm rfl
  rw [Moves, strand_enqueue]
  exact step_setChannel same .stay

theorem step_abandon (taken : mux.step (.abandon other) = some mux') : Moves id calm mux mux' := by
  simp only [step] at taken
  split_ifs at taken
  cases taken
  exact step_setChannel (strand_setChannel _ _ _) .close

theorem step_next (taken : mux.step (.next other) = some mux') : Moves id calm mux mux' := by
  simp only [step] at taken
  rw [Option.ite_none_right_eq_some] at taken
  rcases taken with ⟨live, taken⟩
  rcases buffered : (mux.channels other).buffered with _ | _
  · simp only [buffered] at taken
    split_ifs at taken with sender
    cases taken
    simp only [hasSender, decide_eq_true_eq, not_or] at sender
    rcases sender with ⟨unregistered, reader, writer, unsent⟩
    refine step_setChannel (strand_setChannel _ _ _) ?_
    rw [← buffered]
    apply Strand.Step.finish
    · simp [strand, Channel.isOpen, live]
    · simp [strand, buffered]
    · exact decide_eq_false unregistered
    · intro party
      cases party with
      | reader => exact decide_eq_false reader
      | writer => exact decide_eq_false writer
    · intro ev sending
      rcases eq_of_carrierOf_sending sending with ⟨isSending, names⟩
      exact unsent (by simp [isSending, sendsTo, names])
  · simp only [buffered, Option.some.injEq] at taken
    rw [← taken]
    have avail : (mux.strand other).taken < (mux.strand other).delivered.length := by
      simp [strand, buffered]
    refine step_setChannel ?_ (.take avail)
    rw [strand_setChannel]
    exact Strand.ext rfl rfl rfl rfl rfl (by simp [strand, buffered]) (by simp [strand]) rfl rfl

theorem step_drop (taken : mux.step (.drop other) = some mux') : Moves id calm mux mux' := by
  simp only [step] at taken
  rw [Option.ite_none_right_eq_some, Option.some.injEq] at taken
  rcases taken with ⟨-, rfl⟩
  have closes : Moves id calm mux (mux.setChannel other
        { mux.channels other with receiver := .dropped, flagged := true }) :=
    step_setChannel (strand_setChannel _ _ _) .close
  split_ifs
  · exact closes
  · rw [Moves, strand_enqueue]
    exact closes

section WellFormed

variable (wf : mux.WellFormed)

include wf

theorem WellFormed.shrink (clients : mux'.clients.Sublist mux.clients)
    (issued : mux'.issued = mux.issued) (reader : mux'.reader.pending.Sublist mux.reader.pending)
    (writer : mux'.writer.pending.Sublist mux.writer.pending) : mux'.WellFormed := by
  refine ⟨wf.clients.sublist clients, ?_, ?_, issued ▸ wf.named⟩
  · intro id reg
    rw [issued]
    exact wf.issued id (clients.subset reg)
  · intro party
    cases party with
    | reader => exact (wf.owed .reader).sublist reader
    | writer => exact (wf.owed .writer).sublist writer

theorem Aside.wellFormed (aside : Aside mux mux') : mux'.WellFormed := by
  apply wf.shrink _ aside.issued
  · rw [aside.reader]
  · rw [aside.writer]
  · rw [aside.clients]

theorem WellFormed.setEnding (party : Party)
    (once : ending.pending.Nodup) : (mux.setEnding ending party).WellFormed := by
  cases party with
  | reader =>
    refine ⟨wf.clients, wf.issued, ?_, wf.named⟩
    intro other
    cases other with
    | reader => exact once
    | writer => exact wf.owed .writer
  | writer =>
    refine ⟨wf.clients, wf.issued, ?_, wf.named⟩
    intro other
    cases other with
    | reader => exact wf.owed .reader
    | writer => exact once

theorem WellFormed.shutDown
    (taken : mux.step (.shutDown party order) = some mux') : mux'.WellFormed := by
  rcases eq_of_shutDown taken with ⟨cause, -, perm, rfl⟩
  have once : order.Nodup := (isPerm_iff.mp perm).nodup_iff.mpr wf.clients
  have emptied : WellFormed { mux with clients := [], servers := [], shutdown := true } :=
    wf.shrink (nil_sublist _) rfl (.refl _) (.refl _)
  apply emptied.setEnding
  rw [endingAfter]
  rcases mux.effectiveKind cause with _ | _
  · exact nodup_nil
  · exact once

theorem WellFormed.notify (taken : mux.step (.notify party) = some mux') : mux'.WellFormed := by
  rcases eq_of_notify taken with ⟨kind, first, rest, ends, rfl⟩
  have once := wf.owed party
  rw [owed_of_ending ends] at once
  have same : (mux.setChannel first
      ((mux.channels first).send (.crash (crashError kind first))).flag).WellFormed :=
    wf.shrink (.refl _) rfl (.refl _) (.refl _)
  exact same.setEnding party (nodup_cons.mp once).2

theorem WellFormed.finish (taken : mux.step (.finish party) = some mux') : mux'.WellFormed := by
  rcases eq_of_finish taken with ⟨kind, -, rfl⟩
  exact wf.setEnding party nodup_nil

theorem WellFormed.submit {id : String}
    (taken : mux.step (.submit id) = some mux') : mux'.WellFormed := by
  simp only [step] at taken
  split_ifs at taken with admitted
  cases taken
  rcases admitted with ⟨fresh, -⟩
  simp only [Mux.fresh, decide_eq_true_eq] at fresh
  have new : id ∉ mux.clients := fun reg =>
    fresh.2.1 (wf.issued id reg)
  refine ⟨?_, ?_, wf.owed, ?_⟩
  · rw [← concat_eq_append, nodup_concat]
    exact ⟨new, wf.clients⟩
  · intro other reg
    rcases mem_append.mp reg with prior | last
    · exact mem_cons_of_mem _ (wf.issued other prior)
    · rw [mem_singleton.mp last]
      exact mem_cons_self
  · simpa [Ne.symm fresh.1] using wf.named

theorem WellFormed.enqueue (body : Body) : (mux.enqueue body).WellFormed := by
  rw [Mux.enqueue]
  split_ifs
  · exact wf.shrink (.refl _) rfl (.refl _) (.refl _)
  · exact wf

theorem WellFormed.setChannel (channel : Channel) : (mux.setChannel id channel).WellFormed :=
  wf.shrink (.refl _) rfl (.refl _) (.refl _)

theorem WellFormed.reader (unowed : mux'.reader.pending = [])
    (clients : mux'.clients.Sublist mux.clients) (issued : mux'.issued = mux.issued)
    (writer : mux'.writer = mux.writer) : mux'.WellFormed := by
  apply wf.shrink clients issued
  · rw [unowed]
    exact nil_sublist _
  · rw [writer]

theorem WellFormed.step {act : Act} (taken : mux.step act = some mux') : mux'.WellFormed := by
  cases act with
  | shutDown party order => exact wf.shutDown taken
  | notify party => exact wf.notify taken
  | finish party => exact wf.finish taken
  | submit id => exact wf.submit taken
  | receive body =>
    simp only [Mux.step] at taken
    split_ifs at taken
    cases taken
    exact wf.reader (pending_dispatch body) (.refl _) rfl rfl
  | lookUp =>
    simp only [Mux.step] at taken
    split at taken
    · cases taken
      refine wf.reader ?_ (.refl _) rfl rfl
      split_ifs
      · rfl
      · exact pending_afterRoute _
    · simp at taken
  | deliver =>
    simp only [Mux.step] at taken
    split at taken
    · split_ifs at taken
      cases taken
      exact wf.reader (pending_afterRoute _) (.refl _) rfl rfl
    · simp at taken
  | cleanUp =>
    simp only [Mux.step] at taken
    split at taken
    · cases taken
      exact wf.reader rfl filter_sublist rfl rfl
    · simp at taken
  | request id =>
    simp only [Mux.step] at taken
    split_ifs at taken
    cases taken
    exact (wf.setChannel _).enqueue _
  | abandon id =>
    simp only [Mux.step] at taken
    split_ifs at taken
    cases taken
    exact wf.setChannel _
  | next id =>
    simp only [Mux.step] at taken
    rw [Option.ite_none_right_eq_some] at taken
    rcases taken with ⟨-, taken⟩
    split at taken
    · cases taken
      exact wf.setChannel _
    · split_ifs at taken
      cases taken
      exact wf.setChannel _
  | drop id =>
    simp only [Mux.step] at taken
    rw [Option.ite_none_right_eq_some, Option.some.injEq] at taken
    rcases taken with ⟨-, rfl⟩
    split_ifs
    · exact wf.setChannel _
    · exact (wf.setChannel _).enqueue _
  | _ => exact Aside.wellFormed wf (aside_of_step rfl taken)

end WellFormed

end Mux

end Barista.Ipc

namespace Barista.Ipc.Mux

open List Option Automaton

variable {mux mux' : Mux} {id : String} {calm : Prop} {allowed : Mux → Act → Prop}

def Undisturbed (mux : Mux) : Prop :=
  (∀ event, mux.reader ≠ .sending event) ∧ ∀ actionId ∈ mux.clients, mux.reader ≠ .cleaning actionId

/-- The writer shuts down only while the reader passes nothing on. -/
def Considerate (mux : Mux) (act : Act) : Prop :=
  ∀ order, act = .shutDown .writer order → mux.Undisturbed

theorem Undisturbed.strand (undisturbed : mux.Undisturbed) : (mux.strand id).Undisturbed := by
  constructor
  · intro ev sending
    exact undisturbed.1 ev (Reader.eq_of_carrierOf_sending sending).1
  · intro cleaning
    cases reader : mux.reader with
    | cleaning other =>
      simp only [Mux.strand, reader, Reader.carrierOf] at cleaning
      split_ifs at cleaning with names
      exact decide_eq_false fun reg =>
        undisturbed.2 id reg (names ▸ reader)
    | routing other | sending other =>
      simp only [Mux.strand, reader, Reader.carrierOf] at cleaning
      split_ifs at cleaning
    | _ => simp [Mux.strand, reader, Reader.carrierOf] at cleaning

theorem strand_step (named : id ≠ "") (wf : mux.WellFormed) {act : Act}
    (considerate : calm → mux.Considerate act) (taken : mux.step act = some mux') :
    Strand.Step id calm (mux.strand id) (mux'.strand id) := by
  cases act with
  | receive body => exact step_receive named taken
  | lookUp => exact step_lookUp taken
  | deliver => exact step_deliver taken
  | cleanUp => exact step_cleanUp taken
  | shutDown party order =>
    apply step_shutDown taken
    rintro holds rfl
    exact (considerate holds order rfl).strand
  | notify party => exact step_notify wf taken
  | finish party => exact step_finish taken
  | submit other => exact step_submit taken
  | request other => exact step_request taken
  | abandon other => exact step_abandon taken
  | next other => exact step_next taken
  | drop other => exact step_drop taken
  | _ => exact (aside_of_step rfl taken).step

theorem wellFormed_initial : initial.WellFormed := by
  refine ⟨nodup_nil, by simp [initial], ?_, by simp [initial]⟩
  intro party
  cases party <;> exact nodup_nil

theorem wellFormed_of_reaches (reaches : Reaches step allowed initial mux) : mux.WellFormed := by
  induction reaches with
  | refl => exact wellFormed_initial
  | step prior act meets taken ih => exact ih.step taken

theorem faithful_initial (id : String) : Strand.Faithful id (initial.strand id) := by
  refine ⟨?_, fun _ => rfl, by simp [strand, initial, Channel.absent], ?_, nil_prefix, ?_, ?_,
    ?_, ?_, by simp [strand, initial, Channel.absent]⟩
  · refine fun _ => ⟨rfl, rfl, rfl, rfl, ?_⟩
    intro party
    cases party <;> rfl
  · simp [strand, initial, Reader.carrierOf, Carrier.load]
  all_goals
    intro live
    simp [strand, initial, Channel.absent, Channel.isOpen] at live

theorem orderly_initial (id : String) : (initial.strand id).Orderly := by
  have unowed (party : Party) : (initial.strand id).owedBy party = false := by
    cases party <;> rfl
  refine ⟨by simp [Strand.EndsOnce, strand, initial, Channel.absent], by rintro ⟨⟩, ?_, ?_, ?_⟩
  · intro party owed
    simp [unowed party] at owed
  · intro party other owed
    simp [unowed party] at owed
  · rintro ev ⟨⟩

theorem faithful_of_reaches (named : id ≠ "") (reaches : Reaches step allowed initial mux) :
    Strand.Faithful id (mux.strand id) := by
  induction reaches with
  | refl => exact faithful_initial id
  | step prior act meets taken ih =>
    have wf := wellFormed_of_reaches prior
    have step := @strand_step _ _ _ False named wf act False.elim taken
    exact ih.step step

theorem orderly_of_reaches (named : id ≠ "") (reaches : Reaches step Considerate initial mux) :
    (mux.strand id).Orderly := by
  induction reaches with
  | refl => exact orderly_initial id
  | step prior act meets taken ih =>
    have wf := wellFormed_of_reaches prior
    exact ih.step (faithful_of_reaches named prior) (strand_step named wf (fun _ => meets) taken)

/-- What a handle yields is what the peer sent for its action, in order and without gaps, apart
from the report of a crash, and a handle reports the end only behind an event that ends the
action. -/
theorem handle_faithful (reaches : Reaches step allowed initial mux) : ∀ id ∈ mux.issued,
      (∀ item ∈ (mux.channels id).yielded, item.event.actionId = id) ∧
      (mux.channels id).yielded.filterMap Item.fromPeer <+: eventsFor id mux.received ∧
      ((mux.channels id).ended = true →
        ∃ item ∈ (mux.channels id).yielded, item.isTerminal = true) := by
  intro id issued
  have named : id ≠ "" := by
    rintro rfl
    exact (wellFormed_of_reaches reaches).named issued
  have faithful := faithful_of_reaches named reaches
  refine ⟨?_, ?_, ?_⟩
  · intro item yielded
    exact faithful.names item (mem_append_left _ yielded)
  · have part : (mux.channels id).yielded.filterMap Item.fromPeer <+:
        (mux.strand id).fromPeer := (prefix_append _ _).filterMap _
    exact part.trans faithful.ordered
  · intro ended
    have terminated := faithful.terminated ended
    rwa [strand, take_left] at terminated

def brokenPipe : List Act :=
  [.submit "a", .request "a", .receive (some (.event (.progress "a" []))), .lookUp, .deliver,
    .failToTransmit .closed, .shutDown .writer ["a"], .notify .writer, .next "a", .next "a",
    .next "a"]

theorem handle_faithful_brokenPipe :
    ∃ mux, run step (fun _ _ => True) initial brokenPipe = some mux ∧
      (mux.channels "a").ended = true ∧
      (mux.channels "a").yielded.filterMap Item.fromPeer <+: eventsFor "a" mux.received := by
  have runs : (run step (fun _ _ => True) initial brokenPipe).map
      (fun mux => (mux.issued, (mux.channels "a").ended)) =
      some (["a"], true) := by
    decide
  rcases map_eq_some_iff.mp runs with ⟨mux, runs, facts⟩
  rw [Prod.mk.injEq] at facts
  have reaches : Reaches step (fun _ _ => True) initial mux :=
    Reaches.refl.follow (fun _ _ _ => trivial) runs
  exact ⟨mux, runs, facts.2, (handle_faithful reaches "a" (by simp [facts.1])).2.1⟩

/-- If the writer does not disturb the reader, then a handle yields nothing behind an event that
ends its action. -/
theorem handle_ends_once (reaches : Reaches step Considerate initial mux) :
    ∀ id ∈ mux.issued, Strand.EndsOnce (mux.channels id).yielded := by
  intro id issued
  have named : id ≠ "" := by
    rintro rfl
    exact (wellFormed_of_reaches reaches).named issued
  exact (orderly_of_reaches named reaches).once.of_isPrefix (prefix_append _ _)

theorem handle_ends_once_brokenPipe :
    ∃ mux, run step (fun _ _ => True) initial brokenPipe = some mux ∧
      (mux.channels "a").yielded =
        [.peer (.progress "a" []), .crash (crashError "UnexpectedEof" "a")] ∧
      Strand.EndsOnce (mux.channels "a").yielded := by
  have runs : (run step (fun _ _ => True) initial brokenPipe).map
      (fun mux => (mux.issued, (mux.channels "a").yielded)) =
      some (["a"], [.peer (.progress "a" []), .crash (crashError "UnexpectedEof" "a")]) := by
    decide
  rcases map_eq_some_iff.mp runs with ⟨mux, runs, facts⟩
  rw [Prod.mk.injEq] at facts
  refine ⟨mux, runs, facts.2, ?_⟩
  have calm (acts : List Act) (others : .shutDown .writer ["a"] ∉ acts) (sub : acts ⊆ brokenPipe) :
      ∀ act ∈ acts, ∀ mux, Considerate mux act := by
    rintro act member mux order rfl
    have shutDown := sub member
    simp only [brokenPipe, mem_cons, reduceCtorEq, Act.shutDown.injEq, false_or, or_false,
      true_and, not_mem_nil] at shutDown
    exact absurd (shutDown ▸ member) others
  have parts : run step (fun _ _ => True) initial (brokenPipe.take 6 ++ brokenPipe.drop 6) =
      some mux := runs
  rw [run_append] at parts
  rcases bind_eq_some_iff.mp parts with ⟨before, first, rest⟩
  rcases bind_eq_some_iff.mp rest with ⟨middle, taken, rest⟩
  have waiting : before.reader = .waiting := by
    have start : (run step (fun _ _ => True) initial (brokenPipe.take 6)).map Mux.reader =
        some .waiting := by
      decide
    simpa [first] using start
  have reached := Reaches.refl.follow (calm _ (by decide) (by decide)) first
  have shut := reached.step _ (fun _ _ => ⟨by simp [waiting], by simp [waiting]⟩) taken
  have reaches := shut.follow (calm _ (by decide) (by decide)) rest
  exact handle_ends_once reaches "a" (by simp [facts.1])

def lateResult : List Act :=
  [.submit "a", .request "a", .receive (some (.event (.result "a" []))), .lookUp,
    .failToTransmit .closed, .shutDown .writer ["a"], .notify .writer, .deliver, .next "a",
    .next "a"]

/-- A late result follows the crash event. -/
theorem handle_ends_twice : ∃ mux, Reaches step (fun _ _ => True) initial mux ∧ "a" ∈ mux.issued ∧
      (mux.channels "a").yielded =
        [.crash (crashError "UnexpectedEof" "a"), .peer (.result "a" [])] ∧
      ¬Strand.EndsOnce (mux.channels "a").yielded := by
  have runs : (run step (fun _ _ => True) initial lateResult).map
      (fun mux => (mux.issued, (mux.channels "a").yielded)) =
      some (["a"], [.crash (crashError "UnexpectedEof" "a"), .peer (.result "a" [])]) := by
    decide
  rcases map_eq_some_iff.mp runs with ⟨mux, runs, facts⟩
  rw [Prod.mk.injEq] at facts
  refine ⟨mux, Reaches.refl.follow (fun _ _ _ => trivial) runs, by simp [facts.1], facts.2, ?_⟩
  rw [facts.2]
  intro once
  have nothing := once [] _ _ rfl rfl
  simp at nothing

end Barista.Ipc.Mux
