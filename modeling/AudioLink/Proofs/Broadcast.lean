import Mathlib.Data.List.DropRight
import Mathlib.Data.List.Induction
import AudioLink.Feed

/-!
# What each subscriber of a feed is told

Subscribers come and go, read or do not read, and notices are published meanwhile, in any order.
A move does to a subscriber what `Subscriber.undergo` says, whoever else is there, and so a
subscriber is what has happened since it came: `Feed.since` are the moves that count for it.

A subscriber that goes away stays listed until a notice is delivered. Who is listed therefore
depends on who was gone already when a notice was last delivered, and the count of subscribers
is the count of those still there and of those who have left since.
-/

namespace AudioLink

namespace Feed

/-! ## The course of a feed -/

/-- What a subscriber may do: take its next notice, take all that wait for it, or go away. -/
inductive Act where
  | read (number : Nat)
  | readAll (number : Nat)
  | drop (number : Nat)
deriving DecidableEq

/-- The number of the subscriber that acts. -/
def Act.number : Act → Nat
  | .read number | .readAll number | .drop number => number

/-- What may happen around a feed. -/
inductive Move where
  | subscribe
  | publish (n : Notice)
  | act (a : Act)
deriving DecidableEq

/-- What is read in an act, and the feed after it. -/
def act (f : Feed) : Act → List Notice × Feed
  | .read number => ((f.read number).1.toList, (f.read number).2)
  | .readAll number => f.readAll number
  | .drop number => ([], f.drop number)

/-- The feed after a move. -/
def move (f : Feed) : Move → Feed
  | .subscribe => f.subscribe
  | .publish n => f.publish n
  | .act a => (f.act a).2

/-- What a subscriber reads in a move. -/
def reads (number : Nat) (f : Feed) : Move → List Notice
  | .act a => if a.number = number then (f.act a).1 else []
  | .subscribe | .publish _ => []

/-- The feed after some moves. -/
def course (moves : List Move) (f : Feed) : Feed :=
  moves.foldl move f

/-- All that a subscriber reads in a course. -/
def readings (number : Nat) : List Move → Feed → List Notice
  | [], _ => []
  | move :: rest, f => f.reads number move ++ readings number rest (f.move move)

variable {f : Feed} {s : Subscriber} {number : Nat} {moves rest : List Move}

theorem course_append (moves later : List Move) (f : Feed) :
    f.course (moves ++ later) = (f.course moves).course later :=
  List.foldl_append

theorem readings_append (number : Nat) (moves later : List Move) (f : Feed) :
    f.readings number (moves ++ later)
      = f.readings number moves ++ (f.course moves).readings number later := by
  induction moves generalizing f with
  | nil => rfl
  | cons move rest ih =>
      rw [List.cons_append, readings, ih, readings, List.append_assoc]
      rfl

theorem course_concat (moves : List Move) (mv : Move) (f : Feed) :
    f.course (moves ++ [mv]) = (f.course moves).move mv :=
  course_append moves [mv] f

theorem readings_concat (number : Nat) (moves : List Move) (mv : Move) (f : Feed) :
    f.readings number (moves ++ [mv])
      = f.readings number moves ++ (f.course moves).reads number mv := by
  rw [readings_append, readings, readings, List.append_nil]

/-- Notices go out at once. -/
structure IsOpen (f : Feed) : Prop where
  free : f.held = none
  goesOn : f.closed = false

theorem isOpen_move (h : f.IsOpen) (mv : Move) : (f.move mv).IsOpen := by
  cases mv with
  | subscribe => exact ⟨h.free, h.goesOn⟩
  | publish n =>
      simp only [move, publish, h.free, h.goesOn, Bool.false_or]
      split
      · exact h
      · exact ⟨h.free, h.goesOn⟩
  | act a => cases a <;> exact ⟨h.free, h.goesOn⟩

theorem isOpen_course (moves : List Move) : (course moves {}).IsOpen := by
  induction moves using List.reverseRecOn with
  | nil => exact ⟨rfl, rfl⟩
  | append_singleton moves mv ih =>
      rw [course_concat]
      exact isOpen_move ih mv

/-! ## One subscriber -/

/-- The notice that a move brings to whoever listens: what is published, but for a link or a
playing that goes from a state to the same state. -/
def Move.news? : Move → Option Notice
  | .publish (.link d old new) => if old = new then none else some (.link d old new)
  | .publish (.play d old new) => if old = new then none else some (.play d old new)
  | .publish (.format d format) => some (.format d format)
  | .subscribe | .act _ => none

/-- What is told in some moves. -/
def told (moves : List Move) : List Notice :=
  moves.filterMap Move.news?

theorem Move.news?_publish (n : Notice) :
    (Move.publish n).news? = if n.isChange then some n else none := by
  cases n with
  | link d old new | play d old new => by_cases h : old = new <;> simp [news?, Notice.isChange, h]
  | format => rfl

end Feed

namespace Subscriber

variable {s : Subscriber} {number : Nat}

/-- Some notices reach a subscriber on the way from `s` to `s'`, and it reads some: if it still
listens, all that it had not read before and all that it is told is read by now, in order, or
waits for it. -/
def Hears (told read : List Notice) (s s' : Subscriber) : Prop :=
  s'.listening = true →
    s.listening = true ∧ s'.listed = s.listed ∧ read ++ s'.queue = s.queue ++ told

theorem hears_nothing (s : Subscriber) : s.Hears [] [] s :=
  fun h => ⟨h, rfl, (List.append_nil _).symm⟩

theorem hears_trans {told told' read read' : List Notice} {s₁ s₂ : Subscriber}
    (h : s.Hears told read s₁) (h' : s₁.Hears told' read' s₂) :
    s.Hears (told ++ told') (read ++ read') s₂ := by
  intro hlisten
  obtain ⟨hlisten₁, hlisted', hqueue'⟩ := h' hlisten
  obtain ⟨hlisten₀, hlisted, hqueue⟩ := h hlisten₁
  refine ⟨hlisten₀, hlisted'.trans hlisted, ?_⟩
  rw [List.append_assoc, hqueue', ← List.append_assoc, hqueue, List.append_assoc]

@[simp] theorem listening_receive (s : Subscriber) (n : Notice) :
    (s.receive n).listening = s.listening := by
  unfold receive
  split <;> rfl

/-- What a subscriber reads in an act of its own, and what it is after it. -/
def act (s : Subscriber) : Feed.Act → List Notice × Subscriber
  | .read _ => (s.queue.head?.toList, { s with queue := s.queue.tail })
  | .readAll _ => (s.queue, { s with queue := [] })
  | .drop _ => ([], { s with queue := [], listening := false })

/-- What the subscriber with a number reads in a move. -/
def reads (number : Nat) (s : Subscriber) : Feed.Move → List Notice
  | .act a => if a.number = number then (s.act a).1 else []
  | .subscribe | .publish _ => []

/-- What a move makes of the subscriber with a number. -/
def undergo (number : Nat) (s : Subscriber) : Feed.Move → Subscriber
  | .subscribe => s
  | .publish n => if n.isChange then s.receive n else s
  | .act a => if a.number = number then (s.act a).2 else s

theorem listening_undergo (s : Subscriber) (mv : Feed.Move) :
    (s.undergo number mv).listening = true
      ↔ s.listening = true ∧ mv ≠ .act (.drop number) := by
  cases mv with
  | subscribe => simp [undergo]
  | publish n =>
      rw [undergo]
      split <;> simp
  | act a =>
      by_cases hown : a.number = number
      · subst hown
        cases a <;> simp [undergo, act, Feed.Act.number]
      · have hother : a ≠ .drop number := fun h => hown (congrArg Feed.Act.number h)
        simp [undergo, hown, hother]

theorem listed_undergo (s : Subscriber) (mv : Feed.Move) :
    (s.undergo number mv).listed
      = if mv.news?.isSome then s.listed && s.listening else s.listed := by
  cases mv with
  | subscribe => rfl
  | publish n =>
      by_cases hchange : n.isChange = true
      · cases hlisten : s.listening <;>
          simp [undergo, Feed.Move.news?_publish, hchange, receive, hlisten]
      · simp [undergo, Feed.Move.news?_publish, hchange]
  | act a =>
      rw [undergo]
      split
      · cases a <;> rfl
      · rfl

/-- A move tells a subscriber its news, and lets it read what it reads. -/
theorem hears_undergo (s : Subscriber) (mv : Feed.Move) :
    s.Hears (Feed.told [mv]) (s.reads number mv) (s.undergo number mv) := by
  cases mv with
  | subscribe => exact s.hears_nothing
  | publish n =>
      by_cases hchange : n.isChange = true
      · intro hlisten
        have hlistens := ((s.listening_undergo _).mp hlisten).1
        have htold : Feed.told [.publish n] = [n] := by
          simp [Feed.told, Feed.Move.news?_publish, hchange]
        rw [htold, undergo, if_pos hchange, receive, if_pos hlistens]
        exact ⟨hlistens, rfl, rfl⟩
      · have htold : Feed.told [.publish n] = [] := by
          simp [Feed.told, Feed.Move.news?_publish, hchange]
        rw [htold, undergo, if_neg hchange]
        exact s.hears_nothing
  | act a =>
      by_cases hown : a.number = number
      · rw [reads, if_pos hown, undergo, if_pos hown]
        intro hlisten
        cases a with
        | read =>
            have hread : s.queue.head?.toList ++ s.queue.tail = s.queue := by
              cases s.queue <;> rfl
            exact ⟨hlisten, rfl, hread.trans (List.append_nil _).symm⟩
        | readAll => exact ⟨hlisten, rfl, rfl⟩
        | drop => cases hlisten
      · rw [reads, if_neg hown, undergo, if_neg hown]
        exact s.hears_nothing

end Subscriber

namespace Feed

variable {f : Feed} {s : Subscriber} {number : Nat} {moves rest : List Move}

/-- Changing the queue that was looked up is changing it in its place. -/
theorem setQueue_queued (f : Feed) (number : Nat) (change : List Notice → List Notice) :
    (f.setQueue number (change (f.queued number))).subscribers
      = f.subscribers.modify number fun s => { s with queue := change s.queue } := by
  apply List.ext_getElem?
  intro i
  rw [setQueue, List.getElem?_modify, List.getElem?_modify]
  by_cases hi : number = i
  · subst hi
    cases hs : f.subscribers[number]? <;> simp [queued, hs]
  · simp [hi]

/-- An act changes the subscriber that acts. -/
theorem subscribers_act (f : Feed) (a : Act) :
    (f.act a).2.subscribers = f.subscribers.modify a.number fun s => (s.act a).2 := by
  cases a with
  | read number => exact f.setQueue_queued number List.tail
  | readAll number | drop number => rfl

theorem getElem?_act (f : Feed) (a : Act) (number : Nat) :
    (f.act a).2.subscribers[number]?
      = f.subscribers[number]?.map fun s => if a.number = number then (s.act a).2 else s := by
  rw [subscribers_act, List.getElem?_modify]
  rfl

/-- What is read in an act depends on nobody but the one who acts. -/
theorem read_act (f : Feed) (a : Act) :
    (f.act a).1 = (f.subscribers[a.number]?.map fun s => (s.act a).1).getD [] := by
  cases a with
  | read number | readAll number =>
      simp only [act, read, readAll, queued, Act.number]
      cases f.subscribers[number]? <;> rfl
  | drop number => cases hs : f.subscribers[number]? <;> simp [act, Act.number, hs, Subscriber.act]

theorem reads_eq (f : Feed) (number : Nat) (mv : Move) :
    f.reads number mv = (f.subscribers[number]?.map (·.reads number mv)).getD [] := by
  cases mv with
  | subscribe | publish => cases f.subscribers[number]? <;> rfl
  | act a =>
      by_cases hown : a.number = number
      · subst hown
        simp only [reads, Subscriber.reads, if_true, read_act]
      · cases f.subscribers[number]? <;> simp [reads, Subscriber.reads, hown]

/-- Whoever acts, a subscriber is told nothing, and reads what it reads. It stays unless it is
the one that goes away. -/
theorem hears_act (hs : f.subscribers[number]? = some s) (a : Act) :
    ∃ s', (f.act a).2.subscribers[number]? = some s'
      ∧ (s'.listening = true ↔ s.listening = true ∧ a ≠ .drop number)
      ∧ s.Hears [] (f.reads number (.act a)) s' := by
  rw [getElem?_act, reads_eq, hs]
  refine ⟨s.undergo number (.act a), rfl, ?_, s.hears_undergo (.act a)⟩
  rw [Subscriber.listening_undergo, ne_eq, ne_eq, Move.act.injEq]

/-- **What a move does to a subscriber does not depend on who else is there.** -/
theorem getElem?_move (h : f.IsOpen) (mv : Move) (number : Nat) :
    (f.move mv).subscribers[number]?
      = if mv = .subscribe ∧ number = f.subscribers.length then some {}
        else f.subscribers[number]?.map (·.undergo number mv) := by
  cases mv with
  | subscribe =>
      by_cases hnew : number = f.subscribers.length
      · simp [move, subscribe, hnew]
      · rw [if_neg (fun h => hnew h.2), move, subscribe]
        have hundergo : (fun s : Subscriber => s.undergo number .subscribe) = id := rfl
        rw [hundergo, Option.map_id_fun, id]
        rcases Nat.lt_or_gt_of_ne hnew with hlt | hgt
        · exact List.getElem?_append_left hlt
        · rw [List.getElem?_eq_none (by simp; omega), List.getElem?_eq_none (by omega)]
  | publish n =>
      rw [if_neg (by simp), move, publish, h.goesOn, Bool.false_or, h.free]
      by_cases hchange : n.isChange = true
      · simp [hchange, deliver, Subscriber.undergo]
      · simp [hchange, Subscriber.undergo]
  | act a =>
      rw [if_neg (by simp)]
      exact f.getElem?_act a number

theorem length_move (h : f.IsOpen) (mv : Move) :
    (f.move mv).subscribers.length = f.subscribers.length + [mv].count .subscribe := by
  cases mv with
  | subscribe => simp [move, subscribe]
  | publish n =>
      rw [move, publish, h.goesOn, Bool.false_or, h.free]
      split
      · simp
      · simp [deliver]
  | act a => simp [move, subscribers_act]

/-! ## Since a subscriber came -/

/-- How many subscribers have come. -/
def joined (moves : List Move) : Nat :=
  moves.count .subscribe

@[simp] theorem joined_subscribe (moves : List Move) :
    joined (.subscribe :: moves) = joined moves + 1 :=
  List.count_cons_self

@[simp] theorem joined_publish (n : Notice) (moves : List Move) :
    joined (.publish n :: moves) = joined moves :=
  List.count_cons_of_ne (by simp)

@[simp] theorem joined_act (a : Act) (moves : List Move) :
    joined (.act a :: moves) = joined moves :=
  List.count_cons_of_ne (by simp)

/-- The moves since the subscriber with a number came, if it has come. -/
def since : Nat → List Move → Option (List Move)
  | _, [] => none
  | 0, .subscribe :: rest => some rest
  | number + 1, .subscribe :: rest => since number rest
  | number, .publish _ :: rest => since number rest
  | number, .act _ :: rest => since number rest

theorem since_isSome (number : Nat) (moves : List Move) :
    (since number moves).isSome = true ↔ number < joined moves := by
  induction moves generalizing number with
  | nil => simp [since, joined]
  | cons mv rest ih =>
      cases mv with
      | subscribe =>
          cases number with
          | zero => simp [since]
          | succ number => simp [since, ih number]
      | publish n => simp [since, ih number]
      | act a => simp [since, ih number]

theorem since_eq_none_of_le (h : joined moves ≤ number) : since number moves = none := by
  rw [← Option.not_isSome_iff_eq_none, since_isSome]
  omega

theorem since_concat (number : Nat) (moves : List Move) (mv : Move) :
    since number (moves ++ [mv])
      = if mv = .subscribe ∧ number = joined moves then some []
        else (since number moves).map (· ++ [mv]) := by
  induction moves generalizing number with
  | nil => cases mv <;> cases number <;> simp [since, joined]
  | cons first moves ih =>
      cases first with
      | subscribe =>
          cases number with
          | zero => simp [since]
          | succ number => simpa [since] using ih number
      | publish n => simpa [since] using ih number
      | act a => simpa [since] using ih number

theorem since_append (h : since number moves = some rest) (later : List Move) :
    since number (moves ++ later) = some (rest ++ later) := by
  induction later using List.reverseRecOn with
  | nil => rw [List.append_nil, List.append_nil, h]
  | append_singleton later mv ih =>
      have hlt := (since_isSome number (moves ++ later)).mp (by rw [ih]; rfl)
      rw [← List.append_assoc, since_concat, if_neg (by omega), ih, Option.map_some,
        List.append_assoc]

theorem length_course (moves : List Move) :
    (course moves {}).subscribers.length = joined moves := by
  induction moves using List.reverseRecOn with
  | nil => rfl
  | append_singleton moves mv ih =>
      rw [course_concat, length_move (isOpen_course moves), ih, joined, joined, List.count_append]

/-- What a subscriber has become in a course: it is new when it comes, and then undergoes one
move after the other. -/
theorem getElem?_course_concat (moves : List Move) (mv : Move) (number : Nat) :
    (course (moves ++ [mv]) {}).subscribers[number]?
      = if mv = .subscribe ∧ number = joined moves then some {}
        else (course moves {}).subscribers[number]?.map (·.undergo number mv) := by
  rw [course_concat, getElem?_move (isOpen_course moves), length_course]

/-- A subscriber is what has happened since it came. -/
theorem getElem?_course (moves : List Move) (number : Nat) :
    (course moves {}).subscribers[number]?
      = (since number moves).map fun rest => rest.foldl (·.undergo number ·) {} := by
  induction moves using List.reverseRecOn with
  | nil => rfl
  | append_singleton moves mv ih =>
      rw [getElem?_course_concat, since_concat, ih]
      split
      · rfl
      · cases since number moves <;> simp

/-! ## What a subscriber is told -/

theorem told_append (moves later : List Move) : told (moves ++ later) = told moves ++ told later :=
  List.filterMap_append

/-- A subscriber listens until it goes away. -/
theorem listening_foldl (number : Nat) (rest : List Move) (s : Subscriber) :
    (rest.foldl (·.undergo number ·) s).listening = true
      ↔ s.listening = true ∧ .act (.drop number) ∉ rest := by
  induction rest generalizing s with
  | nil => simp
  | cons mv rest ih =>
      rw [List.foldl_cons, ih, Subscriber.listening_undergo, List.mem_cons, not_or, and_assoc,
        ne_comm]

/-- From being new, a subscriber hears what is told since it came; before, it has read nothing. -/
theorem hears_course (moves : List Move) (number : Nat) :
    match since number moves with
    | none => readings number moves {} = []
    | some rest => ∃ s, (course moves {}).subscribers[number]? = some s
        ∧ ({} : Subscriber).Hears (told rest) (readings number moves {}) s := by
  induction moves using List.reverseRecOn with
  | nil => rfl
  | append_singleton moves mv ih =>
      have hlookup := getElem?_course moves number
      rw [since_concat, getElem?_course_concat, readings_concat, reads_eq]
      by_cases hnew : mv = .subscribe ∧ number = joined moves
      · have hnobody : since number moves = none := since_eq_none_of_le hnew.2.ge
        rw [hnobody] at ih hlookup
        rw [if_pos hnew, if_pos hnew, ih, hlookup, hnew.1]
        exact ⟨{}, rfl, Subscriber.hears_nothing {}⟩
      · rw [if_neg hnew, if_neg hnew]
        cases hsince : since number moves with
        | none =>
            rw [hsince] at ih hlookup
            rw [ih, hlookup]
            rfl
        | some rest =>
            rw [hsince] at ih
            obtain ⟨s, hs, hhears⟩ := ih
            rw [hs]
            refine ⟨_, rfl, ?_⟩
            rw [told_append]
            exact Subscriber.hears_trans hhears (s.hears_undergo mv)

/-- Whoever has come and not gone away has read, or can still read, all that was told since. -/
theorem listener_course (hsince : since number moves = some rest)
    (hstays : .act (.drop number) ∉ rest) :
    readings number moves {} ++ (course moves {}).queued number = told rest := by
  have hlookup := getElem?_course moves number
  have hhears := hears_course moves number
  rw [hsince] at hlookup hhears
  obtain ⟨s, hs, hhears⟩ := hhears
  have hs' := Option.some.inj (hs.symm.trans hlookup)
  have hlisten : s.listening = true := by
    rw [hs', listening_foldl]
    exact ⟨rfl, hstays⟩
  have hqueue : (course moves {}).queued number = s.queue := by rw [queued, hs]; rfl
  rw [hqueue]
  exact (hhears hlisten).2.2.trans (List.nil_append _)

/-- What it reads next is the first of it that it has not read. -/
theorem read_course (hsince : since number moves = some rest)
    (hstays : .act (.drop number) ∉ rest) :
    ((course moves {}).read number).1 = (told rest)[(readings number moves {}).length]? := by
  rw [← listener_course hsince hstays, List.getElem?_append_right (Nat.le_refl _), Nat.sub_self,
    read, List.head?_eq_getElem?]

/-! ## Subscribers do not disturb each other -/

/-- The move is no act of another subscriber than the one with the number. -/
def Move.concerns (number : Nat) : Move → Bool
  | .act a => a.number = number
  | .subscribe | .publish _ => true

/-- What a subscriber reads, and what becomes of it, is the same without the others' acts. -/
theorem course_concerns (moves : List Move) (number : Nat) :
    readings number (moves.filter (·.concerns number)) {} = readings number moves {}
      ∧ (course (moves.filter (·.concerns number)) {}).subscribers[number]?
          = (course moves {}).subscribers[number]? := by
  induction moves using List.reverseRecOn with
  | nil => exact ⟨rfl, rfl⟩
  | append_singleton moves mv ih =>
      obtain ⟨hreadings, hsame⟩ := ih
      rw [List.filter_append, readings_concat, reads_eq, getElem?_course_concat]
      cases hconcerns : mv.concerns number with
      | true =>
          have hjoined : joined (moves.filter (·.concerns number)) = joined moves :=
            List.count_filter rfl
          rw [List.filter_cons_of_pos hconcerns, List.filter_nil, readings_concat, reads_eq,
            getElem?_course_concat, hjoined, hreadings, hsame]
          exact ⟨rfl, rfl⟩
      | false =>
          rw [List.filter_cons_of_neg (by simp [hconcerns]), List.filter_nil, List.append_nil,
            hreadings, hsame]
          cases mv with
          | subscribe | publish => cases hconcerns
          | act a =>
              have hother : a.number ≠ number := of_decide_eq_false hconcerns
              cases (course moves {}).subscribers[number]? <;>
                simp [Subscriber.reads, Subscriber.undergo, hother]

/-! ## Who is listed -/

/-- The subscriber has come and is still there. -/
def live (moves : List Move) (number : Nat) : Bool :=
  (since number moves).any fun rest => .act (.drop number) ∉ rest

/-- The subscriber has come, and has gone away again. -/
def gone (moves : List Move) (number : Nat) : Bool :=
  (since number moves).any fun rest => .act (.drop number) ∈ rest

/-- The moves up to the last one that told anything. -/
def past (moves : List Move) : List Move :=
  moves.rdropWhile fun mv => mv.news?.isNone

/-- The subscriber has gone away, and nothing was told since. -/
def goneUnnoticed (moves : List Move) (number : Nat) : Bool :=
  gone moves number && !gone (past moves) number

theorem past_concat (moves : List Move) (mv : Move) :
    past (moves ++ [mv]) = if mv.news?.isNone then past moves else moves ++ [mv] :=
  List.rdropWhile_concat _ moves mv

theorem exists_past_append (moves : List Move) : ∃ later, past moves ++ later = moves :=
  ⟨_, List.rdropWhile_append_rtakeWhile ..⟩

theorem gone_append (h : gone moves number = true) (later : List Move) :
    gone (moves ++ later) number = true := by
  obtain ⟨rest, hsince, hdrop⟩ := (Option.any_eq_true _ _).mp h
  rw [gone, since_append hsince]
  exact decide_eq_true (List.mem_append_left later (of_decide_eq_true hdrop))

theorem gone_of_past (h : gone (past moves) number = true) : gone moves number = true := by
  obtain ⟨later, hmoves⟩ := exists_past_append moves
  rw [← hmoves]
  exact gone_append h later

/-- Nobody goes away while something is told. -/
theorem gone_concat_news {mv : Move} (hnews : mv.news?.isSome = true) :
    gone (moves ++ [mv]) number = gone moves number := by
  cases mv with
  | subscribe | act => cases hnews
  | publish n =>
      rw [gone, gone, since_concat, if_neg (by simp)]
      cases since number moves <;> simp

theorem live_eq_not_gone (hcome : number < joined moves) :
    live moves number = !gone moves number := by
  obtain ⟨rest, hsince⟩ := Option.isSome_iff_exists.mp ((since_isSome number moves).mpr hcome)
  simp [live, gone, hsince]

theorem listening_course (hs : (course moves {}).subscribers[number]? = some s) :
    s.listening = !gone moves number := by
  rw [getElem?_course] at hs
  obtain ⟨rest, hsince, rfl⟩ := Option.map_eq_some_iff.mp hs
  rw [gone, hsince, Bool.eq_iff_iff, listening_foldl]
  simp

/-- Whoever was not gone when something was told last is listed. -/
theorem listed_course (hs : (course moves {}).subscribers[number]? = some s) :
    s.listed = !gone (past moves) number := by
  induction moves using List.reverseRecOn generalizing s with
  | nil => cases hs
  | append_singleton moves mv ih =>
      rw [getElem?_course_concat] at hs
      by_cases hnew : mv = .subscribe ∧ number = joined moves
      · rw [if_pos hnew] at hs
        obtain rfl := Option.some.inj hs
        have hbefore : joined (past moves) ≤ number := by
          obtain ⟨later, hmoves⟩ := exists_past_append moves
          have hjoined : joined (past moves ++ later) = joined (past moves) + joined later :=
            List.count_append
          rw [hmoves] at hjoined
          omega
        have hpast : past (moves ++ [mv]) = past moves := by rw [past_concat, hnew.1]; rfl
        rw [hpast, gone, since_eq_none_of_le hbefore]
        rfl
      · rw [if_neg hnew] at hs
        obtain ⟨s₀, hs₀, rfl⟩ := Option.map_eq_some_iff.mp hs
        rw [Subscriber.listed_undergo, past_concat]
        cases hnews : mv.news? with
        | none => exact ih hs₀
        | some n =>
            -- a notice has gone out: whoever listens is listed, and nobody else
            show (s₀.listed && s₀.listening) = !gone (moves ++ [mv]) number
            rw [gone_concat_news (by rw [hnews]; rfl), ih hs₀, listening_course hs₀]
            cases hpast : gone (past moves) number with
            | false => rfl
            | true => rw [gone_of_past hpast]; rfl

theorem countP_subscribers (p : Subscriber → Bool) (subscribers : List Subscriber) :
    subscribers.countP p
      = (List.range subscribers.length).countP fun number => subscribers[number]?.any p := by
  induction subscribers with
  | nil => rfl
  | cons s rest ih =>
      rw [List.length_cons, List.range_succ_eq_map, List.countP_cons, List.countP_cons,
        List.countP_map, ih]
      rfl

/-- Listed are those who are still there and those whose going has not been noticed. -/
theorem countP_listed (moves : List Move) :
    (course moves {}).subscribers.countP Subscriber.listed
      = (List.range (joined moves)).countP (live moves)
        + (List.range (joined moves)).countP (goneUnnoticed moves) := by
  have hlisted : ∀ number < joined moves,
      (course moves {}).subscribers[number]?.any Subscriber.listed
        = !gone (past moves) number := by
    intro number hcome
    obtain ⟨s, hs⟩ : ∃ s, (course moves {}).subscribers[number]? = some s :=
      ⟨_, List.getElem?_eq_getElem (by rwa [length_course])⟩
    rw [hs, Option.any_some, listed_course hs]
  rw [countP_subscribers, length_course, List.countP_eq_countP_filter_add _ _ (live moves),
    List.countP_filter, List.countP_filter]
  congr 1
  all_goals
    refine List.countP_congr fun number hnumber => ?_
    have hcome := List.mem_range.mp hnumber
    have hpast : gone (past moves) number = true → gone moves number = true := gone_of_past
    rw [hlisted number hcome, live_eq_not_gone hcome]
  · simpa using fun hgone => Bool.eq_false_iff.mpr fun h => by simp [hpast h] at hgone
  · simp [goneUnnoticed, and_comm]

/-! ## After the end -/

theorem act_close (f : Feed) (a : Act) : f.close.act a = ((f.act a).1, (f.act a).2.close) := by
  cases a <;> rfl

/-- What subscribers do after the end they could have done before it. -/
theorem course_close (f : Feed) (number : Nat) (later : List Act) :
    f.close.course (later.map .act) = (f.course (later.map .act)).close
      ∧ f.close.readings number (later.map .act) = f.readings number (later.map .act) := by
  induction later generalizing f with
  | nil => exact ⟨rfl, rfl⟩
  | cons a rest ih =>
      have hmove : f.close.move (.act a) = (f.move (.act a)).close :=
        congrArg Prod.snd (f.act_close a)
      have hreads : f.close.reads number (.act a) = f.reads number (.act a) := by
        simp only [reads, act_close]
      obtain ⟨hcourse, hreadings⟩ := ih (f.move (.act a))
      simp only [List.map_cons, course, List.foldl_cons, readings, hmove, hreads]
      exact ⟨hcourse, congrArg _ hreadings⟩

theorem told_acts (later : List Act) : told (later.map .act) = [] := by
  induction later with
  | nil => rfl
  | cons a rest ih => exact ih

theorem queued_act (f : Feed) (a : Act) (number : Nat) :
    ((f.act a).2.queued number).length
      ≤ (f.queued number).length - [a].count (.read number) := by
  rw [queued, queued, getElem?_act]
  cases f.subscribers[number]? with
  | none => exact Nat.zero_le _
  | some s =>
      by_cases hown : a.number = number
      · subst hown
        cases a <;> simp [Subscriber.act, Act.number]
      · have hother : a ≠ .read number := fun h => hown (congrArg Act.number h)
        simp [hown, hother]

/-- Whoever takes its next notice has one less waiting. -/
theorem length_queued_le (f : Feed) (number : Nat) (later : List Act) :
    ((f.course (later.map .act)).queued number).length
      ≤ (f.queued number).length - later.count (.read number) := by
  induction later generalizing f with
  | nil => simp [course]
  | cons a rest ih =>
      have hact := f.queued_act a number
      have hrest := ih (f.act a).2
      have hcount : (a :: rest).count (.read number)
          = [a].count (.read number) + rest.count (.read number) := by
        rw [← List.count_append, List.singleton_append]
      rw [hcount]
      exact hrest.trans (by omega)

/-- Whatever is done after the end, what is read and what is left are together what was left
then. -/
theorem remainder_after_end (hsince : since number moves = some rest)
    (hstays : .act (.drop number) ∉ rest) {later : List Act} (hlater : .drop number ∉ later) :
    (course moves {}).close.readings number (later.map .act)
        ++ ((course moves {}).close.course (later.map .act)).queued number
      = (course moves {}).queued number := by
  obtain ⟨hcourse, hreadings⟩ := (course moves {}).course_close number later
  -- had it all been done before the end, it would have come to the same
  have hbefore := listener_course (since_append hsince (later.map .act))
    (by simpa [hstays] using hlater)
  rw [readings_append, course_append, told_append, told_acts, List.append_nil,
    ← listener_course hsince hstays, List.append_assoc] at hbefore
  rw [hreadings, hcourse]
  exact List.append_cancel_left hbefore

/-- After the end, whoever has nothing left to read waits in vain. -/
theorem isOver_after_end (f : Feed) (number : Nat) (later : List Act) :
    (f.close.course (later.map .act)).isOver number = true
      ↔ (f.close.course (later.map .act)).queued number = [] := by
  rw [isOver, (f.course_close number later).1, ← List.isEmpty_iff]
  exact Iff.rfl

/-- Whoever has read all that waited for it has nothing left to read. -/
theorem queued_readAll (f : Feed) (number : Nat) : (f.readAll number).2.queued number = [] := by
  rw [readAll, setQueue, queued, List.getElem?_modify]
  cases f.subscribers[number]? <;> simp

theorem isOver_readAll (hclosed : f.closed = true) (number : Nat) :
    (f.readAll number).2.isOver number = true := by
  rw [isOver, f.queued_readAll number, Bool.and_eq_true]
  exact ⟨hclosed, rfl⟩

/-! ## The feed as a whole -/

/-- **Everybody is told all that came after them, whatever the others do.** After any moves around
a feed that holds nothing back:

* whoever has come and not gone away has read, or can still read, all that was told since it came,
  in order and once, and its wait is not over; the next notice it reads is the first of these that
  it has not read, and if it reads all that waits for it, it has read them all;
* what a subscriber reads, and what waits for it, is the same without the acts of all others;
* as many are counted as are still there, and as have gone since something was told last;
* and once the feed has ended, whoever is there reads what it had not read before, in order, and
  nothing else; its wait is over when it has read it all, which as many readings as notices were
  left for it will do, and so will one reading of all that waits. -/
theorem everybody_is_told_since_coming (moves : List Move) :
    let f := course moves {}
    (∀ number rest, since number moves = some rest → .act (.drop number) ∉ rest →
        readings number moves {} ++ f.queued number = told rest ∧ f.isOver number = false
          ∧ (f.read number).1 = (told rest)[(readings number moves {}).length]?
          ∧ readings number moves {} ++ (f.readAll number).1 = told rest
          ∧ (f.readAll number).2.queued number = [])
      ∧ (∀ number,
          readings number (moves.filter (·.concerns number)) {} = readings number moves {}
          ∧ (course (moves.filter (·.concerns number)) {}).queued number = f.queued number)
      ∧ f.count? = some ((List.range (joined moves)).countP (live moves)
          + (List.range (joined moves)).countP (goneUnnoticed moves))
      ∧ ∀ number rest, since number moves = some rest → .act (.drop number) ∉ rest →
          ∀ later : List Act, .drop number ∉ later →
            let g := f.close.course (later.map .act)
            let read := f.close.readings number (later.map .act)
            read ++ g.queued number = f.queued number
              ∧ (g.isOver number = true ↔ read = f.queued number)
              ∧ ((g.read number).1 = none ↔ g.isOver number = true)
              ∧ ((f.queued number).length ≤ later.count (.read number) →
                  read = f.queued number)
              ∧ read ++ (g.readAll number).1 = f.queued number
              ∧ (g.readAll number).2.isOver number = true := by
  intro f
  have hopen : f.IsOpen := isOpen_course moves
  refine ⟨?_, fun number => ?_, ?_, ?_⟩
  · intro number rest hsince hstays
    have hall : readings number moves {} ++ f.queued number = told rest :=
      listener_course hsince hstays
    refine ⟨hall, ?_, read_course hsince hstays, hall, f.queued_readAll number⟩
    rw [isOver, hopen.goesOn, Bool.false_and]
  · obtain ⟨hreadings, hsame⟩ := course_concerns moves number
    exact ⟨hreadings, by rw [queued, queued, hsame]⟩
  · rw [count?, if_neg (by simp [hopen.goesOn]), countP_listed]
  · intro number rest hsince hstays later hlater g read
    have hall : read ++ g.queued number = f.queued number :=
      remainder_after_end hsince hstays hlater
    have hover : g.isOver number = true ↔ g.queued number = [] := f.isOver_after_end number later
    have hdone : g.queued number = [] ↔ read = f.queued number := by
      rw [← hall, List.self_eq_append_right]
    have hclosed : g.closed = true := by
      rw [show g = _ from (f.course_close number later).1]
      rfl
    refine ⟨hall, hover.trans hdone, ?_, fun hmany => hdone.mp ?_, hall,
      isOver_readAll hclosed number⟩
    · rw [hover, Feed.read, List.head?_eq_none_iff]
    · have hfew : (g.queued number).length
          ≤ (f.queued number).length - later.count (.read number) := by
        rw [show g = _ from (f.course_close number later).1]
        exact f.length_queued_le number later
      exact List.eq_nil_of_length_eq_zero (by omega)

/-- Who has gone is still counted when a notice is published that tells of no change, and no
longer when one is published that does. -/
example (d : Address) (format : StreamFormat) :
    let moves := [.subscribe, .subscribe, .act (.drop 1), .publish (.play d .playing .playing)]
    (course moves {}).count? = some 2
      ∧ (course (moves ++ [.publish (.format d format)]) {}).count? = some 1 :=
  ⟨rfl, rfl⟩

end Feed

end AudioLink
