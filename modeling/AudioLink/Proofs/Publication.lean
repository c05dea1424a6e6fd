import Mathlib.Data.List.Induction
import AudioLink.Controller
import AudioLink.Proofs.Broadcast
import AudioLink.Proofs.Ending
import AudioLink.Proofs.Replica

/-!
# What subscribers hear, and what they find published meanwhile

The controller deals with one message of its mailbox after another. Between two of them
messages may be posted, and subscribers may come, read and go. Three things meet in each of
its steps: what the machine tells is held back while it works, the snapshot is published in
the middle, and the notices then go out to whoever still listens.

`Publisher.step_eq` says what a step comes to. From it, by induction over all that can happen
around the controller: everybody who listens has been told what the machine told since they
subscribed, all of it, in order and once; and whoever looks at the snapshot on being told
finds the machine as it was left by the message in question. The message that ends the machine
is the last one, whatever is posted behind it.
-/

namespace AudioLink

variable {env : Surroundings} {m : Machine} {s : Subscriber} {f : Feed}
  {notices held : List Notice}

/-! ## Delivery -/

/-- Some notices are delivered to a subscriber, one after the other. -/
def Subscriber.receiveAll (notices : List Notice) (s : Subscriber) : Subscriber :=
  notices.foldl (fun s n => s.receive n) s

namespace Subscriber

theorem receiveAll_of_listening (h : s.listening = true) :
    s.receiveAll notices = { s with queue := s.queue ++ notices } := by
  induction notices generalizing s with
  | nil => simp [receiveAll]
  | cons n rest ih =>
      have hfirst : s.receive n = { s with queue := s.queue ++ [n] } := if_pos h
      rw [receiveAll, List.foldl_cons, hfirst]
      have hrest := ih (s := { s with queue := s.queue ++ [n] }) h
      rw [List.append_assoc] at hrest
      exact hrest

@[simp] theorem listening_receiveAll (notices : List Notice) (s : Subscriber) :
    (s.receiveAll notices).listening = s.listening := by
  induction notices generalizing s with
  | nil => rfl
  | cons n rest ih => exact (ih (s.receive n)).trans (s.listening_receive n)

end Subscriber

namespace Feed

theorem foldl_deliver (notices : List Notice) (f : Feed) :
    notices.foldl deliver f
      = { f with subscribers := f.subscribers.map (·.receiveAll notices) } := by
  induction notices generalizing f with
  | nil => simp [Subscriber.receiveAll]
  | cons n rest ih =>
      rw [List.foldl_cons, ih]
      simp only [deliver, List.map_map]
      rfl

/-- What is published on a feed that is held joins what is held back. -/
theorem foldl_publish (hopen : f.closed = false) (hnews : ∀ n ∈ notices, n.isChange = true) :
    notices.foldl publish { f with held := some held }
      = { f with held := some (held ++ notices) } := by
  induction notices generalizing held with
  | nil => simp
  | cons n rest ih =>
      have hfirst : publish { f with held := some held } n
          = { f with held := some (held ++ [n]) } := by
        simp [publish, hopen, hnews n List.mem_cons_self]
      rw [List.foldl_cons, hfirst, ih fun n' hn' => hnews n' (List.mem_cons_of_mem n hn'),
        List.append_assoc]
      rfl

end Feed

/-! ## One step of the publisher -/

/-- Everything that a machine tells about a message is news. -/
theorem isChange_of_mem_notices (hc : Consistent m) {msg : Message} {n : Notice}
    (hn : n ∈ (m.handle env msg).notices) : n.isChange = true := by
  have hnews : (m.handle env msg).effects.all Effect.isNews = true :=
    (handle_keeps (I := fun log _ => log.all Effect.isNews = true) (fun _ h => h)
      (fun _ _ h ho => by rw [List.all_append, h, news_outcome ho]; rfl) env msg [] hc rfl).2
  have hall := isChange_of_news hnews
  rw [Turn.notices, ← hall] at hn
  exact (List.mem_filter.mp hn).2

/-- What a turn delivers: its notices, while the snapshot after it is published. -/
def Turn.deliveries (t : Turn) : List Delivery :=
  t.notices.map fun notice => ⟨notice, t.machine.snapshot⟩

namespace Publisher

variable {p : Publisher} {msg : Message}

/-- What is known of a publisher between two messages. -/
structure Ready (p : Publisher) : Prop where
  consistent : Consistent p.machine
  /-- Nothing is held back. -/
  free : p.feed.held = none
  /-- The feed goes on. -/
  goesOn : p.feed.closed = false
  /-- The snapshot is that of the machine. -/
  published : p.published = p.machine.snapshot

/-- The publisher after a turn of its machine: all notices have gone out, to all subscribers,
with the snapshot of the machine after the turn already published. -/
def tell (t : Turn) (p : Publisher) : Publisher where
  machine := t.machine
  published := t.machine.snapshot
  feed := { p.feed with subscribers := p.feed.subscribers.map (·.receiveAll t.notices) }
  deliveries := p.deliveries ++ t.deliveries

/-- **What a step of the publisher comes to.** -/
theorem step_eq (h : p.Ready) (env : Surroundings) (msg : Message) :
    (p.step env msg).1 = p.tell (p.machine.handle env msg) := by
  have hwork : (p.machine.handle env msg).notices.foldl Feed.publish p.feed.hold
      = { p.feed with held := some (p.machine.handle env msg).notices } := by
    have hhold : p.feed.hold = { p.feed with held := some [] } := by simp [Feed.hold, h.free]
    rw [hhold]
    exact Feed.foldl_publish h.goesOn fun n hn => isChange_of_mem_notices h.consistent hn
  simp only [step, work, publish, release, hwork, Feed.release, Feed.heldBack, Option.getD_some,
    Feed.foldl_deliver, h.free, tell, Turn.deliveries]

theorem ready_step (h : p.Ready) (env : Surroundings) (msg : Message) :
    (p.step env msg).1.Ready := by
  rw [step_eq h]
  exact ⟨consistent_handle msg h.consistent, h.free, h.goesOn, rfl⟩

/-- A publisher goes on until its machine is told to end. -/
theorem isRunning_step_shutdown (h : p.Ready) (hrun : p.isRunning = true) (env : Surroundings) :
    (p.step env .shutdown).1.isRunning = false := by
  have hrun : p.machine.stopped = false := by simpa [isRunning] using hrun
  have hstop : (p.machine.handle env .shutdown).machine.stopped = true := by
    rw [(handle_shutdown env h.consistent hrun).2]
  rw [step_eq h]
  simp [isRunning, tell, hstop]

end Publisher

/-! ## The turns of a run -/

/-- The turns in which a machine handles messages, one for each. -/
def Machine.turns : List (Surroundings × Message) → Machine → List Turn
  | [], _ => []
  | o :: rest, m => m.handle o.1 o.2 :: turns rest (m.handle o.1 o.2).machine

theorem turns_append (occasions later : List (Surroundings × Message)) (m : Machine) :
    m.turns (occasions ++ later) = m.turns occasions ++ (m.run occasions).machine.turns later := by
  induction occasions generalizing m with
  | nil => rfl
  | cons o rest ih =>
      have hrun : (m.run (o :: rest)).machine = ((m.handle o.1 o.2).machine.run rest).machine :=
        machine_run_append [o] rest m
      rw [hrun, List.cons_append, Machine.turns, ih, Machine.turns, List.cons_append]

/-! ## All that can happen around a controller -/

namespace Controller

variable {c c₁ c₂ : Controller} {number : Nat}

/-- A controller that has not begun. -/
def fresh (settings : Settings) (registry : Registry) : Controller where
  settings := settings
  registry := registry
  publisher := .ofSettings settings

example (settings : Settings) (registry : Registry) (h : settings.validate = .ok ()) :
    build settings registry true = .ok (fresh settings registry) := by
  rw [build, h]
  rfl

/-- What can happen around a controller. -/
inductive Move where
  /-- A message joins the mailbox, also behind the one that will end the machine. -/
  | post (message : Message)
  /-- The oldest message is dealt with, in some surroundings. -/
  | deal (env : Surroundings)
  | subscribe
  /-- A subscriber reads its next notice. -/
  | read (number : Nat)
  /-- A subscriber goes away. -/
  | drop (number : Nat)

/-- The message that a move posts, if it posts any. -/
def Move.message? : Move → Option Message
  | .post message => some message
  | .deal _ | .subscribe | .read _ | .drop _ => none

def feed (c : Controller) : Feed :=
  c.publisher.feed

def setFeed (feed : Feed) (c : Controller) : Controller :=
  { c with publisher := { c.publisher with feed } }

/-- The controller after a move. Nothing is dealt with once the machine has ended. -/
def move (c : Controller) : Move → Controller
  | .post message => { c with mailbox := c.mailbox ++ [message] }
  | .deal env => if c.publisher.isRunning then ((c.deal? env).map Prod.fst).getD c else c
  | .subscribe => c.subscribe
  | .read number => c.setFeed (c.feed.read number).2
  | .drop number => c.setFeed (c.feed.drop number)

example (c : Controller) (message : Message) (h : c.accepting = true) :
    c.post message = .ok (c.move (.post message)) :=
  if_pos h

example (c : Controller) (h : c.accepting = true) :
    c.shutDown = { c.move (.post .shutdown) with accepting := false } :=
  if_pos h

/-- The controller after some moves. -/
def course (moves : List Move) (c : Controller) : Controller :=
  moves.foldl move c

/-- The message that a move deals with, if it deals with any. -/
def deals? (c : Controller) : Move → Option (Surroundings × Message)
  | .deal env => if c.publisher.isRunning then c.mailbox.head?.map (env, ·) else none
  | .post _ | .subscribe | .read _ | .drop _ => none

/-- What a subscriber reads in a move. -/
def reads (number : Nat) (c : Controller) : Move → List Notice
  | .read number' => if number' = number then (c.feed.read number).1.toList else []
  | .post _ | .deal _ | .subscribe | .drop _ => []

/-- What the moves of a course yield, one after the other. -/
def along {α : Type} (yield : Controller → Move → List α) : List Move → Controller → List α
  | [], _ => []
  | move :: rest, c => yield c move ++ along yield rest (c.move move)

/-- The messages that are dealt with in a course, in their surroundings. -/
def dealt (moves : List Move) (c : Controller) : List (Surroundings × Message) :=
  c.along (fun c move => (c.deals? move).toList) moves

/-- All that a subscriber reads in a course. -/
def readings (number : Nat) (moves : List Move) (c : Controller) : List Notice :=
  c.along (reads number) moves

theorem course_append (moves later : List Move) (c : Controller) :
    c.course (moves ++ later) = (c.course moves).course later :=
  List.foldl_append

theorem along_append {α : Type} (yield : Controller → Move → List α) (moves later : List Move)
    (c : Controller) :
    c.along yield (moves ++ later) = c.along yield moves ++ (c.course moves).along yield later := by
  induction moves generalizing c with
  | nil => rfl
  | cons move rest ih =>
      rw [List.cons_append, along, ih, along, List.append_assoc]
      rfl

/-! ## Dealing with a message -/

theorem deal_idle (env : Surroundings) (h : c.publisher.isRunning = true → c.mailbox = []) :
    c.deals? (.deal env) = none ∧ c.move (.deal env) = c := by
  by_cases hrun : c.publisher.isRunning = true
  · simp [deals?, move, deal?, hrun, h hrun]
  · simp [deals?, move, hrun]

theorem deal_next {msg : Message} {rest : List Message} (env : Surroundings)
    (hrun : c.publisher.isRunning = true) (hmail : c.mailbox = msg :: rest) :
    c.deals? (.deal env) = some (env, msg)
      ∧ c.move (.deal env) = { c with
          publisher := (c.publisher.step env msg).1
          mailbox := if (c.publisher.step env msg).1.isRunning then rest else [] } := by
  simp [deals?, move, deal?, hrun, hmail]

theorem deal_cases (env : Surroundings) (c : Controller) :
    (c.deals? (.deal env) = none ∧ c.move (.deal env) = c)
      ∨ ∃ msg rest, c.publisher.isRunning = true ∧ c.mailbox = msg :: rest
          ∧ c.deals? (.deal env) = some (env, msg)
          ∧ c.move (.deal env) = { c with
              publisher := (c.publisher.step env msg).1
              mailbox := if (c.publisher.step env msg).1.isRunning then rest else [] } := by
  cases hmail : c.mailbox with
  | nil => exact Or.inl (deal_idle env fun _ => hmail)
  | cons msg rest =>
      by_cases hrun : c.publisher.isRunning = true
      · exact Or.inr ⟨msg, rest, hrun, rfl, deal_next env hrun hmail⟩
      · exact Or.inl (deal_idle env fun h => absurd h hrun)

/-! ## The mailbox -/

/-- Some messages are posted on the way from `c` to `c'`, and some are dealt with. -/
structure TakesInOrder (posted dealt : List Message) (c c' : Controller) : Prop where
  /-- They are dealt with in the order in which they came, and none is lost while the machine
  runs. -/
  order : ∃ lost, c.mailbox ++ posted = dealt ++ lost ++ c'.mailbox
    ∧ (c'.publisher.isRunning = true → lost = [])
  /-- Nothing is dealt with any more once the machine has ended. -/
  ended : c.publisher.isRunning = false → dealt = [] ∧ c'.publisher.isRunning = false

theorem takesInOrder_trans {posted posted' dealt dealt' : List Message}
    (h : TakesInOrder posted dealt c c₁) (h' : TakesInOrder posted' dealt' c₁ c₂) :
    TakesInOrder (posted ++ posted') (dealt ++ dealt') c c₂ where
  order := by
    obtain ⟨lost, horder, hall⟩ := h.order
    obtain ⟨lost', horder', hall'⟩ := h'.order
    cases hrun : c₁.publisher.isRunning with
    | true =>
        refine ⟨lost', ?_, hall'⟩
        rw [← List.append_assoc, horder, hall hrun, List.append_nil, List.append_assoc, horder']
        simp only [List.append_assoc]
    | false =>
        obtain ⟨hnone, hend⟩ := h'.ended hrun
        refine ⟨lost ++ lost', ?_, fun hrun' => by simp [hend] at hrun'⟩
        rw [← List.append_assoc, horder, List.append_assoc, horder', hnone]
        simp only [List.append_assoc, List.nil_append]
  ended := by
    intro hend
    obtain ⟨hnone, hend₁⟩ := h.ended hend
    obtain ⟨hnone', hend₂⟩ := h'.ended hend₁
    exact ⟨by rw [hnone, hnone', List.append_nil], hend₂⟩

theorem takesInOrder_move (c : Controller) (move : Move) :
    TakesInOrder move.message?.toList ((c.deals? move).toList.map Prod.snd) c (c.move move) := by
  cases move with
  | post => exact ⟨⟨[], rfl, fun _ => rfl⟩, fun hend => ⟨rfl, hend⟩⟩
  | subscribe | read | drop =>
      exact ⟨⟨[], List.append_nil _, fun _ => rfl⟩, fun hend => ⟨rfl, hend⟩⟩
  | deal env =>
      rcases c.deal_cases env with ⟨hdeals, hmove⟩ | ⟨msg, rest, hrun, hmail, hdeals, hmove⟩
      · rw [hdeals, hmove]
        exact ⟨⟨[], List.append_nil _, fun _ => rfl⟩, fun hend => ⟨rfl, hend⟩⟩
      · rw [hdeals, hmove]
        refine ⟨?_, fun hend => by simp [hend] at hrun⟩
        rw [hmail]
        -- the rest of the mailbox waits, or is lost
        cases hrun' : (c.publisher.step env msg).1.isRunning with
        | true => exact ⟨[], by simp [Move.message?], fun _ => rfl⟩
        | false => exact ⟨rest, by simp [Move.message?], fun hgoes => by cases hgoes⟩

theorem takesInOrder_course (moves : List Move) (c : Controller) :
    TakesInOrder (moves.filterMap Move.message?) ((c.dealt moves).map Prod.snd) c
      (c.course moves) := by
  induction moves generalizing c with
  | nil => exact ⟨⟨[], by simp [dealt, along, course], fun _ => rfl⟩, fun hend => ⟨rfl, hend⟩⟩
  | cons move rest ih =>
      have hboth := takesInOrder_trans (c.takesInOrder_move move) (ih (c.move move))
      have hposted : (move :: rest).filterMap Move.message?
          = move.message?.toList ++ rest.filterMap Move.message? := by
        rw [List.filterMap_cons]
        cases move.message? <;> rfl
      rw [hposted, dealt, along, List.map_append]
      exact hboth

/-! ## The machine and what is published -/

/-- Some messages are dealt with on the way from `c` to `c'`: the machine has handled them, and
the notices of their turns have gone out. -/
structure Publishes (occasions : List (Surroundings × Message)) (c c' : Controller) : Prop where
  ready : c'.publisher.Ready
  machine : c'.publisher.machine = (c.publisher.machine.run occasions).machine
  deliveries : c'.publisher.deliveries
    = c.publisher.deliveries ++ (c.publisher.machine.turns occasions).flatMap Turn.deliveries

theorem publishes_trans {occasions occasions' : List (Surroundings × Message)}
    (h : Publishes occasions c c₁) (h' : Publishes occasions' c₁ c₂) :
    Publishes (occasions ++ occasions') c c₂ where
  ready := h'.ready
  machine := by rw [h'.machine, h.machine, machine_run_append]
  deliveries := by
    rw [h'.deliveries, h.deliveries, h.machine, turns_append, List.flatMap_append,
      List.append_assoc]

theorem publishes_nothing {feed : Feed} (h : c.publisher.Ready) (hheld : feed.held = none)
    (hopen : feed.closed = false) : Publishes [] c (c.setFeed feed) where
  ready := ⟨h.consistent, hheld, hopen, h.published⟩
  machine := rfl
  deliveries := (List.append_nil _).symm

theorem publishes_move (h : c.publisher.Ready) (move : Move) :
    Publishes (c.deals? move).toList c (c.move move) := by
  cases move with
  | post => exact ⟨h, rfl, (List.append_nil _).symm⟩
  | subscribe | read | drop => exact publishes_nothing h h.free h.goesOn
  | deal env =>
      rcases c.deal_cases env with ⟨hdeals, hmove⟩ | ⟨msg, rest, hrun, hmail, hdeals, hmove⟩
      · rw [hdeals, hmove]
        exact ⟨h, rfl, (List.append_nil _).symm⟩
      · rw [hdeals, hmove]
        refine ⟨Publisher.ready_step h env msg, ?_, ?_⟩
        · rw [Publisher.step_eq h]
          rfl
        · rw [Publisher.step_eq h]
          simp [Publisher.tell, Machine.turns]

theorem publishes_course (moves : List Move) (h : c.publisher.Ready) :
    Publishes (c.dealt moves) c (c.course moves) := by
  induction moves generalizing c with
  | nil => exact ⟨h, rfl, (List.append_nil _).symm⟩
  | cons move rest ih =>
      have hmove := publishes_move h move
      exact publishes_trans hmove (ih hmove.ready)

/-! ## What a subscriber hears -/

theorem hears_move (h : c.publisher.Ready) (hs : c.feed.subscribers[number]? = some s)
    (move : Move) :
    ∃ s', (c.move move).feed.subscribers[number]? = some s'
      ∧ (s'.listening = true ↔ s.listening = true ∧ move ≠ .drop number)
      ∧ s.Hears ((c.publisher.machine.turns (c.deals? move).toList).flatMap Turn.notices)
          (c.reads number move) s' := by
  cases move with
  | post => exact ⟨s, hs, by simp, s.hears_nothing⟩
  | subscribe =>
      have hlt : number < c.feed.subscribers.length := (List.getElem?_eq_some_iff.mp hs).1
      exact ⟨s, (List.getElem?_append_left hlt).trans hs, by simp, s.hears_nothing⟩
  | read number' =>
      have hreads :
          c.reads number (.read number') = c.feed.reads number (.act (.read number')) := by
        by_cases hsame : number' = number
        · subst hsame
          rfl
        · simp [reads, Feed.reads, Feed.Act.number, hsame]
      rw [hreads]
      obtain ⟨s', hs', hstays, hhears⟩ := c.feed.hears_act hs (.read number')
      exact ⟨s', hs', by simpa using hstays, hhears⟩
  | drop number' =>
      obtain ⟨s', hs', hstays, hhears⟩ := c.feed.hears_act hs (.drop number')
      rw [Feed.reads, Feed.act, ite_self] at hhears
      exact ⟨s', hs', by simpa using hstays, hhears⟩
  | deal env =>
      rcases c.deal_cases env with ⟨hdeals, hmove⟩ | ⟨msg, rest, hrun, hmail, hdeals, hmove⟩
      · rw [hdeals, hmove]
        exact ⟨s, hs, by simp, s.hears_nothing⟩
      · rw [hdeals, hmove, feed, Publisher.step_eq h]
        refine ⟨s.receiveAll (c.publisher.machine.handle env msg).notices, ?_, by simp, ?_⟩
        · exact (List.getElem?_map ..).trans (congrArg (Option.map _) hs)
        · intro hlisten
          rw [Subscriber.listening_receiveAll] at hlisten
          rw [Subscriber.receiveAll_of_listening hlisten]
          exact ⟨hlisten, rfl, by simp [reads, Machine.turns]⟩

/-- A subscriber hears the turns of a course, and listens until it goes away. -/
theorem hears_course (moves : List Move) (h : c.publisher.Ready)
    (hs : c.feed.subscribers[number]? = some s) :
    ∃ s', (c.course moves).feed.subscribers[number]? = some s'
      ∧ (s'.listening = true ↔ s.listening = true ∧ .drop number ∉ moves)
      ∧ s.Hears ((c.publisher.machine.turns (c.dealt moves)).flatMap Turn.notices)
          (c.readings number moves) s' := by
  induction moves generalizing c s with
  | nil => exact ⟨s, hs, by simp, s.hears_nothing⟩
  | cons move rest ih =>
      have hmove := publishes_move h move
      obtain ⟨s₁, hs₁, hstays, hfirst⟩ := hears_move h hs move
      obtain ⟨s₂, hs₂, hstays', hrest⟩ := ih hmove.ready hs₁
      have hboth := Subscriber.hears_trans hfirst hrest
      rw [hmove.machine, ← List.flatMap_append, ← turns_append] at hboth
      refine ⟨s₂, hs₂, ?_, hboth⟩
      rw [hstays', hstays, List.mem_cons, not_or, and_assoc, ne_comm]

/-! ## Behind the end -/

/-- The move posts a message. -/
def Move.isPost (move : Move) : Bool :=
  move.message?.isSome

/-- Two controllers that differ in nothing but in what stands in the mailbox of the first
behind the message that will end the machine. -/
structure SameToTheEnd (c c' : Controller) : Prop where
  publisher : c'.publisher = c.publisher
  mailbox : c.publisher.isRunning = true →
    ∃ front behind, c.mailbox = front ++ .shutdown :: behind ∧ c'.mailbox = front ++ [.shutdown]

theorem sameToTheEnd_shutdown (c : Controller) :
    SameToTheEnd (c.move (.post .shutdown)) (c.move (.post .shutdown)) where
  publisher := rfl
  mailbox := fun _ => ⟨c.mailbox, [], rfl, rfl⟩

theorem sameToTheEnd_post (h : SameToTheEnd c c₁) (msg : Message) :
    SameToTheEnd (c.move (.post msg)) c₁ where
  publisher := h.publisher
  mailbox := by
    intro hrun
    obtain ⟨front, behind, hmail, hmail'⟩ := h.mailbox hrun
    refine ⟨front, behind ++ [msg], ?_, hmail'⟩
    show c.mailbox ++ [msg] = _
    rw [hmail, List.append_assoc, List.cons_append]

theorem sameToTheEnd_deal (h : SameToTheEnd c c₁) (hr : c.publisher.Ready) (env : Surroundings) :
    SameToTheEnd (c.move (.deal env)) (c₁.move (.deal env))
      ∧ c₁.deals? (.deal env) = c.deals? (.deal env) := by
  cases hrun : c.publisher.isRunning with
  | false =>
      have hidle : c.publisher.isRunning = true → c.mailbox = [] := fun h => by simp [hrun] at h
      have hidle' : c₁.publisher.isRunning = true → c₁.mailbox = [] := fun h' => by
        simp [h.publisher, hrun] at h'
      rw [(deal_idle env hidle).1, (deal_idle env hidle).2, (deal_idle env hidle').1,
        (deal_idle env hidle').2]
      exact ⟨h, rfl⟩
  | true =>
      have hrun' : c₁.publisher.isRunning = true := by rw [h.publisher, hrun]
      obtain ⟨front, behind, hmail, hmail'⟩ := h.mailbox hrun
      cases front with
      | nil =>
          have hend := Publisher.isRunning_step_shutdown hr hrun env
          rw [(deal_next env hrun hmail).1, (deal_next env hrun hmail).2,
            (deal_next env hrun' hmail').1, (deal_next env hrun' hmail').2, h.publisher]
          refine ⟨⟨rfl, fun hgoes => ?_⟩, rfl⟩
          rw [hend] at hgoes
          cases hgoes
      | cons msg front =>
          rw [(deal_next env hrun hmail).1, (deal_next env hrun hmail).2,
            (deal_next env hrun' hmail').1, (deal_next env hrun' hmail').2, h.publisher]
          refine ⟨⟨rfl, fun hgoes => ⟨front, behind, ?_, ?_⟩⟩, rfl⟩
          · exact if_pos hgoes
          · exact if_pos hgoes

theorem sameToTheEnd_setFeed (h : SameToTheEnd c c₁) (feed : Feed) :
    SameToTheEnd (c.setFeed feed) (c₁.setFeed feed) where
  publisher := by simp [setFeed, h.publisher]
  mailbox := h.mailbox

theorem sameToTheEnd_move (h : SameToTheEnd c c₁) (hr : c.publisher.Ready) {move : Move}
    (hmove : move.isPost = false) :
    SameToTheEnd (c.move move) (c₁.move move) ∧ c₁.deals? move = c.deals? move
      ∧ ∀ number, c₁.reads number move = c.reads number move := by
  have hfeed : c₁.feed = c.feed := congrArg Publisher.feed h.publisher
  cases move with
  | post => cases hmove
  | deal env =>
      obtain ⟨hsame, hdeals⟩ := sameToTheEnd_deal h hr env
      exact ⟨hsame, hdeals, fun _ => rfl⟩
  | subscribe =>
      refine ⟨?_, rfl, fun _ => rfl⟩
      show SameToTheEnd (c.setFeed c.feed.subscribe) (c₁.setFeed c₁.feed.subscribe)
      rw [hfeed]
      exact sameToTheEnd_setFeed h _
  | read number' =>
      refine ⟨?_, rfl, fun number => by simp only [reads, hfeed]⟩
      rw [Controller.move, Controller.move, hfeed]
      exact sameToTheEnd_setFeed h _
  | drop number' =>
      refine ⟨?_, rfl, fun _ => rfl⟩
      rw [Controller.move, Controller.move, hfeed]
      exact sameToTheEnd_setFeed h _

theorem sameToTheEnd_course (moves : List Move) (h : SameToTheEnd c c₁) (hr : c.publisher.Ready) :
    let few := moves.filter (!·.isPost)
    SameToTheEnd (c.course moves) (c₁.course few) ∧ c₁.dealt few = c.dealt moves
      ∧ ∀ number, c₁.readings number few = c.readings number moves := by
  induction moves generalizing c c₁ with
  | nil => exact ⟨h, rfl, fun _ => rfl⟩
  | cons move rest ih =>
      cases hpost : move.isPost with
      | true =>
          cases move with
          | post msg =>
              have hrest := ih (sameToTheEnd_post h msg) (publishes_move hr (.post msg)).ready
              rw [List.filter_cons_of_neg (by simp [hpost])]
              exact hrest
          | _ => cases hpost
      | false =>
          obtain ⟨hsame, hdeals, hreads⟩ := sameToTheEnd_move h hr hpost
          obtain ⟨hsame', hdealt, hreadings⟩ := ih hsame (publishes_move hr move).ready
          rw [List.filter_cons_of_pos (by simp [hpost])]
          refine ⟨hsame', ?_, fun number => ?_⟩
          · simp only [dealt, along, hdeals] at hdealt ⊢
            rw [hdealt]
          · have hreadings := hreadings number
            simp only [readings, along, hreads number] at hreadings ⊢
            rw [hreadings]

/-! ## All together -/

theorem ready_fresh (settings : Settings) (registry : Registry) :
    (fresh settings registry).publisher.Ready where
  consistent := consistent_fresh settings.capacity.toNat settings.timeout ⟨settings.quiet⟩
  free := rfl
  goesOn := rfl
  published := rfl

/-- **Subscribers are told what the machine tells, and find it published.** Whatever is posted
and dealt with in between, and whoever comes, reads and goes: the messages are dealt with in
the order in which they were posted, and none is lost before the machine has ended. The machine
is what handling them makes of it, and its snapshot is the one published. Every notice of a
turn goes out while the snapshot after that turn is published. A subscriber listens until it
goes away; one that has not gone away is still listed, and what it has read together with what
waits for it is what the turns since it subscribed have told, in order. And it makes no
difference what is posted behind the message that ends the machine. -/
theorem publication_follows_machine (settings : Settings) (registry : Registry)
    (moves : List Move) :
    let start := fresh settings registry
    let c := start.course moves
    (∃ lost, moves.filterMap Move.message? = (start.dealt moves).map Prod.snd ++ lost ++ c.mailbox
        ∧ (c.publisher.isRunning = true → lost = []))
      ∧ c.publisher.machine = (start.publisher.machine.run (start.dealt moves)).machine
      ∧ c.snapshot = c.publisher.machine.snapshot
      ∧ c.publisher.deliveries
        = (start.publisher.machine.turns (start.dealt moves)).flatMap Turn.deliveries
      ∧ (∀ before after, moves = before ++ .subscribe :: after →
          let number := (start.course before).feed.subscribers.length
          let joined := (start.course before).move .subscribe
          ∃ s, c.feed.subscribers[number]? = some s
            ∧ (s.listening = true ↔ .drop number ∉ after)
            ∧ (.drop number ∉ after → s.listed = true
              ∧ joined.readings number after ++ s.queue
                = (joined.publisher.machine.turns (joined.dealt after)).flatMap Turn.notices))
      ∧ (∀ before after, moves = before ++ .post .shutdown :: after →
          let few := before ++ .post .shutdown :: after.filter (!·.isPost)
          (start.course few).publisher = c.publisher ∧ start.dealt few = start.dealt moves
            ∧ ∀ number, start.readings number few = start.readings number moves) := by
  intro start c
  have hstart : start.publisher.Ready := ready_fresh settings registry
  have hcourse : Publishes (start.dealt moves) start c := publishes_course moves hstart
  refine ⟨(takesInOrder_course moves start).order, hcourse.machine, hcourse.ready.published,
    hcourse.deliveries, ?_, ?_⟩
  · rintro before after rfl number joined
    have hbefore := (publishes_course before hstart).ready
    have hjoined : joined.publisher.Ready := (publishes_move hbefore .subscribe).ready
    have hnew : joined.feed.subscribers[number]? = some {} := List.getElem?_concat_length
    obtain ⟨s, hs, hstays, hhears⟩ := hears_course after hjoined hnew
    have hcut : c = joined.course after := course_append before (.subscribe :: after) start
    have hlisten : s.listening = true ↔ .drop number ∉ after := hstays.trans (and_iff_right rfl)
    refine ⟨s, hcut ▸ hs, hlisten, fun hthere => ?_⟩
    obtain ⟨-, hlisted, hqueue⟩ := hhears (hlisten.mpr hthere)
    exact ⟨hlisted, hqueue⟩
  · rintro before after rfl few
    let ending := (start.course before).move (.post .shutdown)
    have hbefore := (publishes_course before hstart).ready
    have hending : ending.publisher.Ready := (publishes_move hbefore (.post .shutdown)).ready
    obtain ⟨hsame, hdealt, hreadings⟩ :=
      sameToTheEnd_course after (sameToTheEnd_shutdown (start.course before)) hending
    have hcut : ∀ later, start.course (before ++ .post .shutdown :: later) = ending.course later :=
      fun later => course_append before (.post .shutdown :: later) start
    refine ⟨?_, ?_, fun number => ?_⟩
    · rw [hcut, hsame.publisher, ← hcut]
    · have hsplit : ∀ later, start.dealt (before ++ .post .shutdown :: later)
          = start.dealt before ++ ending.dealt later := fun later => along_append ..
      rw [hsplit, hsplit, hdealt]
    · have hsplit : ∀ later, start.readings number (before ++ .post .shutdown :: later)
          = start.readings number before ++ ending.readings number later := fun later =>
        along_append ..
      rw [hsplit, hsplit, hreadings]

/-- A subscriber reads that a link is being brought up. Then the machine is told to end, and
behind that it is asked for another link. -/
theorem subscriber_is_told_to_the_end :
    let env := ({} : ScriptedStack).surroundings ({} : Registry).facts
    let first := Address.of 0 0 0 0 0 1
    let second := Address.of 0 0 0 0 0 2
    let moves : List Move :=
      [.post (.request (.connect first)), .deal env, .read 0, .post .shutdown,
        .post (.request (.connect second)), .deal env, .deal env]
    let start := fresh .multicast {}
    let c := start.course (.subscribe :: moves)
    let joined := start.move .subscribe
    .drop 0 ∉ moves ∧ ∃ s, c.feed.subscribers[0]? = some s
      ∧ s.listening = true ∧ s.listed = true
      ∧ joined.readings 0 moves = [.link first .disconnected .connecting]
      ∧ joined.readings 0 moves ++ s.queue
        = [.link first .disconnected .connecting, .link first .connecting .disconnected] := by
  intro env first second moves start c joined
  obtain ⟨-, -, -, -, htold, -⟩ :=
    publication_follows_machine .multicast {} (.subscribe :: moves)
  obtain ⟨s, hs, hlisten, hall⟩ := htold [] moves rfl
  have hs : c.feed.subscribers[0]? = some s := hs
  have hthere : .drop 0 ∉ moves := by simp [moves]
  have hturns : (joined.publisher.machine.turns (joined.dealt moves)).flatMap Turn.notices
      = [.link first .disconnected .connecting, .link first .connecting .disconnected] := by
    decide +kernel
  exact ⟨hthere, s, hs, hlisten.mpr hthere, (hall hthere).1, by decide +kernel,
    (hall hthere).2.trans hturns⟩

end Controller

end AudioLink
