import AudioLink.Proofs.Numerals
import AudioLink.Settings.Variables

/-!
# Settings taken from an environment

Demands are made on an environment in a fixed order: first that the texts its variables hold can
be read, one after the other, and then that neither the count nor the time they give is nothing.
The environment is taken exactly if all of the demands are met, and the first one that is not met
is what is complained of.

What a text says is told here without the reader: blanks, then a numeral or a word, then blanks
again. Each step of the reader is shown to answer the demands on what it reads (`Answers`), and
steps one after the other answer the demands of both (`Answers.bind`), so that the order of the
complaints is the order of the steps.
-/

namespace AudioLink

/-! ## Time -/

namespace Duration

/-- How long a duration is, to the nanosecond. -/
def nanoseconds (d : Duration) : Nat :=
  d.seconds.toNat * 1000000000 + d.nanos

theorem nanoseconds_injective {d d' : Duration} (h : d.nanoseconds = d'.nanoseconds) : d = d' := by
  have hnanos := d.nanos_lt
  have hnanos' := d'.nanos_lt
  simp only [nanoseconds] at h
  have hseconds : d.seconds = d'.seconds := UInt64.toNat_inj.mp (by omega)
  have hrest : d.nanos = d'.nanos := by omega
  cases d
  cases d'
  cases hseconds
  cases hrest
  rfl

theorem nanoseconds_ofMillis (millis : UInt64) :
    (ofMillis millis).nanoseconds = millis.toNat * 1000000 := by
  have hthousand : (1000 : UInt64).toNat = 1000 := rfl
  simp only [nanoseconds, ofMillis, UInt64.toNat_div, hthousand]
  omega

theorem nanoseconds_eq_zero_iff {d : Duration} : d.nanoseconds = 0 ↔ d = zero :=
  ⟨fun h => nanoseconds_injective (h.trans rfl), fun h => h ▸ rfl⟩

end Duration

namespace Settings

/-! ## What texts say -/

variable {held : String}

/-- The text held is a numeral of the count, blanks around it aside. -/
def IsCount (held : String) (count : Nat) : Prop :=
  ∃ core, Text.IsPadded core held.toList ∧ Text.IsNumeral count core

/-- The words for a truth value. -/
def words : Bool → List String
  | true => ["1", "true", "yes", "on"]
  | false => ["0", "false", "no", "off"]

/-- The text held is a word for the truth value, blanks around it and capitals aside. -/
def IsBoolean (held : String) (b : Bool) : Prop :=
  ∃ core, Text.IsPadded core held.toList ∧ String.ofList (core.map Char.toLower) ∈ words b

/-- The text held is a count of milliseconds, which take the time given in nanoseconds. -/
def IsTime (held : String) (nanoseconds : Nat) : Prop :=
  ∃ millis, IsCount held millis ∧ nanoseconds = millis * 1000000

theorem isCount_iff {count : Nat} :
    IsCount held count ↔ Text.IsNumeral count (Text.trim held.toList) :=
  Text.exists_padded_iff fun _ => Text.isBlank_of_isNumeral

theorem IsCount.unique {count count' : Nat} (h : IsCount held count) (h' : IsCount held count') :
    count = count' :=
  (isCount_iff.mp h).unique (isCount_iff.mp h')

/-- A numeral of nothing is a numeral of no other count. -/
theorem isCount_zero_iff {count : Nat} (h : IsCount held count) : count = 0 ↔ IsCount held 0 :=
  ⟨fun hzero => hzero ▸ h, h.unique⟩

theorem isTime_zero_iff {nanoseconds : Nat} (h : IsTime held nanoseconds) :
    nanoseconds = 0 ↔ IsCount held 0 := by
  obtain ⟨millis, hmillis, rfl⟩ := h
  rw [Nat.mul_eq_zero, or_iff_left (by decide)]
  exact isCount_zero_iff hmillis

theorem IsTime.unique {nanoseconds nanoseconds' : Nat} (h : IsTime held nanoseconds)
    (h' : IsTime held nanoseconds') : nanoseconds = nanoseconds' := by
  obtain ⟨millis, hmillis, rfl⟩ := h
  obtain ⟨millis', hmillis', rfl⟩ := h'
  rw [hmillis.unique hmillis']

theorem count?_eq_some_iff {count : UInt64} :
    count? held = some count ↔ IsCount held count.toNat := by
  rw [count?, Option.map_eq_some_iff, isCount_iff]
  constructor
  · rintro ⟨value, hvalue, rfl⟩
    obtain ⟨hnumeral, hlt⟩ := Text.numeral?_eq_some_iff.mp hvalue
    rwa [UInt64.toNat_ofNat_of_lt' hlt]
  · intro h
    exact ⟨count.toNat, Text.numeral?_eq_some_iff.mpr ⟨h, count.toNat_lt_size⟩,
      UInt64.ofNat_toNat⟩

theorem count?_eq_none (h : count? held = none) : ¬∃ count < 2 ^ 64, IsCount held count := by
  rintro ⟨count, hlt, hcount⟩
  have hsome : count? held = some (UInt64.ofNat count) :=
    count?_eq_some_iff.mpr (by rwa [UInt64.toNat_ofNat_of_lt' hlt])
  cases h.symm.trans hsome

theorem isBlank_of_word {b : Bool} {core : List Char}
    (h : String.ofList (core.map Char.toLower) ∈ words b) :
    ∀ c ∈ core, Text.isBlank c = false := by
  have hwords : ∀ b, (words b).all (fun word => !word.toList.any Text.isBlank) = true := by decide
  have hword := List.all_eq_true.mp (hwords b) _ h
  rw [String.toList_ofList, Bool.not_eq_true', List.any_eq_false] at hword
  intro c hc
  refine Bool.eq_false_iff.mpr fun hblank => hword c.toLower (List.mem_map_of_mem hc) ?_
  rwa [Text.toLower_of_isBlank hblank]

theorem isBoolean_iff {b : Bool} :
    IsBoolean held b ↔ String.ofList (Text.lower (Text.trim held.toList)) ∈ words b :=
  Text.exists_padded_iff fun _ => isBlank_of_word

theorem boolean?_eq_some_iff {b : Bool} : boolean? held = some b ↔ IsBoolean held b := by
  rw [isBoolean_iff]
  simp only [boolean?]
  generalize String.ofList (Text.lower (Text.trim held.toList)) = word
  change (if word ∈ words true then some true else if word ∈ words false then some false else none)
    = some b ↔ word ∈ words b
  -- no word is one for both
  have hdisjoint : ∀ word ∈ words true, word ∉ words false := by decide
  constructor
  · intro h
    split at h
    · next htrue => exact Option.some.inj h ▸ htrue
    split at h
    · next hfalse => exact Option.some.inj h ▸ hfalse
    · cases h
  · intro h
    cases b with
    | true => rw [if_pos h]
    | false => rw [if_neg fun htrue => hdisjoint word htrue h, if_pos h]

theorem IsBoolean.unique {b b' : Bool} (h : IsBoolean held b) (h' : IsBoolean held b') : b = b' :=
  Option.some.inj ((boolean?_eq_some_iff.mpr h).symm.trans (boolean?_eq_some_iff.mpr h'))

/-! ## Demands -/

/-- What is demanded of an environment, and the complaint where the demand is not met. -/
structure Demand where
  met : Prop
  complaint : String

/-- The text held is a count that is small enough. -/
def Demand.number (name held : String) : Demand where
  met := ∃ count < 2 ^ 64, IsCount held count
  complaint := name ++ ": not a number: " ++ held

/-- The text held is a truth value. -/
def Demand.boolean (name held : String) : Demand where
  met := ∃ b, IsBoolean held b
  complaint := name ++ ": expected a boolean: " ++ held

/-- The text held is not nothing, in whatever way that may be written. -/
def Demand.positive (setting held : String) : Demand where
  met := ¬IsCount held 0
  complaint := setting ++ " must be greater than 0"

/-- What is demanded of the texts alone, in the order in which they are looked at. -/
def textDemands (lookup : String → Option String) : List Demand :=
  (lookup "A2DP_MAX_CONNECTIONS").toList.map (.number "A2DP_MAX_CONNECTIONS")
    ++ ((lookup "A2DP_QUIET_MODE").toList.map (.boolean "A2DP_QUIET_MODE")
    ++ (lookup "A2DP_CONNECT_TIMEOUT_MS").toList.map (.number "A2DP_CONNECT_TIMEOUT_MS"))

/-- What is demanded of the settings that the texts give. The defaults are more than nothing, so
that only a text can fail here. -/
def valueDemands (lookup : String → Option String) : List Demand :=
  (lookup "A2DP_MAX_CONNECTIONS").toList.map (.positive "max_connections")
    ++ (lookup "A2DP_CONNECT_TIMEOUT_MS").toList.map (.positive "connect_timeout")

/-- All that is demanded of an environment. A variable that is not set is asked for nothing. -/
def demands (lookup : String → Option String) : List Demand :=
  textDemands lookup ++ valueDemands lookup

/-- The demand is the first of the list that is not met. -/
def FirstUnmet (ds : List Demand) (demand : Demand) : Prop :=
  ∃ before after, ds = before ++ demand :: after
    ∧ (∀ earlier ∈ before, earlier.met) ∧ ¬demand.met

variable {ds ds' : List Demand} {demand demand' : Demand}

theorem firstUnmet_cons (h : ¬demand.met) : FirstUnmet (demand :: ds) demand :=
  ⟨[], ds, rfl, fun _ h => absurd h List.not_mem_nil, h⟩

theorem FirstUnmet.append (h : FirstUnmet ds demand) : FirstUnmet (ds ++ ds') demand := by
  obtain ⟨before, after, rfl, hbefore, hunmet⟩ := h
  exact ⟨before, after ++ ds', List.append_assoc _ _ _, hbefore, hunmet⟩

theorem FirstUnmet.after (hmet : ∀ earlier ∈ ds, earlier.met) (h : FirstUnmet ds' demand) :
    FirstUnmet (ds ++ ds') demand := by
  obtain ⟨before, after, rfl, hbefore, hunmet⟩ := h
  exact ⟨ds ++ before, after, (List.append_assoc _ _ _).symm,
    List.forall_mem_append.mpr ⟨hmet, hbefore⟩, hunmet⟩

theorem FirstUnmet.not_all_met (h : FirstUnmet ds demand) : ¬∀ earlier ∈ ds, earlier.met := by
  obtain ⟨before, after, rfl, -, hunmet⟩ := h
  exact fun hmet => hunmet (hmet demand (by simp))

theorem FirstUnmet.unique (h : FirstUnmet ds demand) (h' : FirstUnmet ds demand') :
    demand = demand' := by
  classical
  have hfind : ∀ {d}, FirstUnmet ds d → ds.find? (fun d => ¬d.met) = some d := by
    rintro d ⟨before, after, hds, hbefore, hunmet⟩
    refine List.find?_eq_some_iff_append.mpr ⟨decide_eq_true hunmet, before, after, hds, ?_⟩
    intro earlier hearlier
    simp [hbefore earlier hearlier]
  exact Option.some.inj ((hfind h).symm.trans (hfind h'))

/-! ## Answers to demands -/

variable {α β : Type} {good : α → Prop} {good' : β → Prop}

/-- A reader answers demands if it succeeds, with a good value, where all of them are met, and
complains of the first that is not met otherwise. -/
inductive Answers (good : α → Prop) (ds : List Demand) : Except Problem α → Prop
  | value {a : α} (hmet : ∀ demand ∈ ds, demand.met) (ha : good a) : Answers good ds (.ok a)
  | complaint {problem : Problem} {demand : Demand} (hunmet : FirstUnmet ds demand)
      (hmessage : problem.message = demand.complaint) : Answers good ds (.error problem)

theorem Answers.after {x : Except Problem α} (hmet : ∀ demand ∈ ds, demand.met)
    (hx : Answers good ds' x) : Answers good (ds ++ ds') x := by
  cases hx with
  | value hmet' ha => exact .value (List.forall_mem_append.mpr ⟨hmet, hmet'⟩) ha
  | complaint hunmet hmessage => exact .complaint (hunmet.after hmet) hmessage

/-- Readers one after the other answer the demands on both of them. -/
theorem Answers.bind {x : Except Problem α} {f : α → Except Problem β} (hx : Answers good ds x)
    (hf : ∀ a, good a → Answers good' ds' (f a)) : Answers good' (ds ++ ds') (x >>= f) := by
  cases hx with
  | value hmet ha => exact (hf _ ha).after hmet
  | complaint hunmet hmessage => exact .complaint hunmet.append hmessage

theorem Answers.pure {a : α} (ha : good a) : Answers good [] (Pure.pure a : Except Problem α) :=
  .value (fun _ h => absurd h List.not_mem_nil) ha

/-- A text in which something is looked for answers the one demand on it. -/
theorem answers_elim {found : Option β} (value : β → α) {problem : Problem}
    (hfound : ∀ b, found = some b → demand.met ∧ good (value b))
    (hnone : found = none → ¬demand.met) (hmessage : problem.message = demand.complaint) :
    Answers good [demand] (found.elim (.error problem) (.ok ∘ value)) := by
  cases found with
  | none => exact .complaint (firstUnmet_cons (hnone rfl)) hmessage
  | some b =>
      obtain ⟨hmet, hgood⟩ := hfound b rfl
      exact .value (List.forall_mem_singleton.mpr hmet) hgood

/-! ## Variables -/

/-- The value is what the text says that a variable holds, and the default where the variable is
not set. -/
def Given (tells : String → α → Prop) (default : α) : Option String → α → Prop
  | none, value => value = default
  | some held, value => tells held value

/-- The settings are what the variables of an environment say, and the defaults for those that
are not set. -/
structure AsGiven (lookup : String → Option String) (s : Settings) : Prop where
  /-- One device at a time by default. -/
  capacity : Given IsCount 1 (lookup "A2DP_MAX_CONNECTIONS") s.capacity.toNat
  /-- Not quiet by default. -/
  quiet : Given IsBoolean false (lookup "A2DP_QUIET_MODE") s.quiet
  /-- Thirty seconds by default. -/
  timeout : Given IsTime 30000000000 (lookup "A2DP_CONNECT_TIMEOUT_MS") s.timeout.nanoseconds

variable {name setting : String} {held? : Option String}

/-- A text that is read as a count answers the demand for one, whatever is made of the count. -/
theorem answers_number (value : UInt64 → α)
    (hgood : ∀ count, IsCount held count.toNat → good (value count)) :
    Answers good [Demand.number name held]
      ((count? held).elim (.error (.notANumber name held)) (.ok ∘ value)) := by
  refine answers_elim value (fun count hcount => ?_) count?_eq_none rfl
  have hcount := count?_eq_some_iff.mp hcount
  exact ⟨⟨count.toNat, count.toNat_lt, hcount⟩, hgood count hcount⟩

theorem answers_readCount {default : UInt64} :
    Answers (fun count => Given IsCount default.toNat held? count.toNat)
      (held?.toList.map (.number name)) (readCount name default held?) := by
  cases held? with
  | none => exact .pure rfl
  | some held => exact answers_number id fun _ hcount => hcount

theorem answers_readTimeout {default : Duration} :
    Answers (fun time => Given IsTime default.nanoseconds held? time.nanoseconds)
      (held?.toList.map (.number name)) (readTimeout name default held?) := by
  cases held? with
  | none => exact .pure rfl
  | some held =>
      exact answers_number Duration.ofMillis fun millis hmillis =>
        ⟨millis.toNat, hmillis, Duration.nanoseconds_ofMillis millis⟩

theorem answers_readBoolean {default : Bool} :
    Answers (Given IsBoolean default held?) (held?.toList.map (.boolean name))
      (readBoolean name default held?) := by
  cases held? with
  | none => exact .pure rfl
  | some held =>
      rw [readBoolean]
      refine answers_elim id (fun b hb => ?_) ?_ rfl
      · have hb := boolean?_eq_some_iff.mp hb
        exact ⟨⟨b, hb⟩, hb⟩
      · rintro hnone ⟨b, hb⟩
        cases hnone.symm.trans (boolean?_eq_some_iff.mpr hb)

/-- To look whether a variable gives nothing, before all else, answers the demand that it gives
something. -/
theorem Answers.positive (setting : String) {tells : String → Nat → Prop} {default amount : Nat}
    {nothing : Prop} [Decidable nothing] {problem : Problem} {x : Except Problem α}
    (htells : ∀ held amount, tells held amount → (amount = 0 ↔ IsCount held 0))
    (hdefault : default ≠ 0) (hamount : Given tells default held? amount)
    (hnothing : nothing ↔ amount = 0)
    (hmessage : problem.message = setting ++ " must be greater than 0") (hx : Answers good ds x) :
    Answers good (held?.toList.map (.positive setting) ++ ds)
      (if nothing then .error problem else x) := by
  cases held? with
  | none =>
      have hamount : amount = default := hamount
      rw [if_neg fun h => hdefault (hamount.symm.trans (hnothing.mp h))]
      exact hx
  | some held =>
      have hzero : amount = 0 ↔ IsCount held 0 := htells held amount hamount
      by_cases h : nothing
      · have hunmet : ¬(Demand.positive setting held).met :=
          not_not.mpr (hzero.mp (hnothing.mp h))
        rw [if_pos h]
        exact .complaint (firstUnmet_cons hunmet) hmessage
      · rw [if_neg h]
        refine hx.after (List.forall_mem_singleton.mpr fun hcount => ?_)
        exact h (hnothing.mpr (hzero.mpr hcount))

theorem Given.unique {tells : String → α → Prop} {default a a' : α}
    (h : Given tells default held? a) (h' : Given tells default held? a')
    (htells : ∀ held a a', tells held a → tells held a' → a = a') : a = a' := by
  cases held? with
  | none => exact Eq.trans h (Eq.symm h')
  | some held => exact htells held a a' h h'

/-! ## Environments -/

variable {lookup : String → Option String} {s s' : Settings}

/-- An environment gives settings in one way. -/
theorem AsGiven.unique (h : AsGiven lookup s) (h' : AsGiven lookup s') : s = s' := by
  have hcapacity : s.capacity = s'.capacity :=
    UInt64.toNat_inj.mp (h.capacity.unique h'.capacity fun _ _ _ => IsCount.unique)
  have hquiet : s.quiet = s'.quiet := h.quiet.unique h'.quiet fun _ _ _ => IsBoolean.unique
  have htimeout : s.timeout = s'.timeout :=
    Duration.nanoseconds_injective (h.timeout.unique h'.timeout fun _ _ _ => IsTime.unique)
  cases s
  cases s'
  cases hcapacity
  cases hquiet
  cases htimeout
  rfl

theorem answers_read :
    Answers (AsGiven lookup) (textDemands lookup) (read (.ofEnvironment lookup)) := by
  have hread : Answers (AsGiven lookup) _ (read (.ofEnvironment lookup)) :=
    answers_readCount.bind fun capacity hcapacity =>
      answers_readBoolean.bind fun quiet hquiet =>
        answers_readTimeout.bind fun timeout htimeout =>
          .pure ⟨hcapacity, hquiet, htimeout⟩
  rwa [List.append_nil] at hread

theorem answers_validate (h : AsGiven lookup s) :
    Answers (fun _ => True) (valueDemands lookup) s.validate := by
  have hcapacity : s.capacity = 0 ↔ s.capacity.toNat = 0 := UInt64.toNat_inj.symm
  have hvalidate : Answers (fun _ => True) _ s.validate :=
    .positive "max_connections" (fun _ _ => isCount_zero_iff) (by decide) h.capacity hcapacity rfl
      (.positive "connect_timeout" (fun _ _ => isTime_zero_iff) (by decide) h.timeout
        Duration.nanoseconds_eq_zero_iff.symm rfl (.pure trivial))
  rwa [List.append_nil] at hvalidate

theorem answers_ofVariables (lookup : String → Option String) :
    Answers (AsGiven lookup) (demands lookup) (ofVariables (.ofEnvironment lookup)) := by
  have hread : Answers (AsGiven lookup) _ (ofVariables (.ofEnvironment lookup)) :=
    answers_read.bind fun _ hgiven => (answers_validate hgiven).bind fun _ _ => .pure hgiven
  rwa [List.append_nil] at hread

/-- Either settings are taken and all demands are met, or one is not and is complained of. -/
theorem ofEnvironment_cases (lookup : String → Option String) :
    (∃ s, ofEnvironment lookup = .ok s ∧ (∀ demand ∈ demands lookup, demand.met)
        ∧ AsGiven lookup s)
      ∨ ∃ demand, ofEnvironment lookup = .error (.configuration demand.complaint)
        ∧ FirstUnmet (demands lookup) demand := by
  have hanswers := answers_ofVariables lookup
  unfold ofEnvironment
  generalize ofVariables (.ofEnvironment lookup) = result at hanswers
  cases hanswers with
  | value hmet hgiven => exact Or.inl ⟨_, rfl, hmet, hgiven⟩
  | complaint hunmet hmessage =>
      refine Or.inr ⟨_, ?_, hunmet⟩
      rw [← hmessage]
      rfl

theorem ofEnvironment_eq_ok_iff :
    ofEnvironment lookup = .ok s ↔ (∀ demand ∈ demands lookup, demand.met) ∧ AsGiven lookup s := by
  rcases ofEnvironment_cases lookup with
    ⟨taken, htaken, hmet, hgiven⟩ | ⟨demand, hrefused, hunmet⟩
  · rw [htaken]
    constructor
    · intro h
      obtain rfl := Except.ok.inj h
      exact ⟨hmet, hgiven⟩
    · rintro ⟨-, hgiven'⟩
      rw [hgiven.unique hgiven']
  · rw [hrefused]
    constructor
    · intro h
      cases h
    · rintro ⟨hmet, -⟩
      exact absurd hmet hunmet.not_all_met

theorem ofEnvironment_eq_error_iff {failure : Failure} :
    ofEnvironment lookup = .error failure ↔
      ∃ demand, FirstUnmet (demands lookup) demand
        ∧ failure = .configuration demand.complaint := by
  rcases ofEnvironment_cases lookup with ⟨taken, htaken, hmet, -⟩ | ⟨demand, hrefused, hunmet⟩
  · rw [htaken]
    constructor
    · intro h
      cases h
    · rintro ⟨demand, hunmet, -⟩
      exact absurd hmet hunmet.not_all_met
  · rw [hrefused]
    constructor
    · intro h
      exact ⟨demand, hunmet, (Except.error.inj h).symm⟩
    · rintro ⟨demand', hunmet', rfl⟩
      rw [hunmet.unique hunmet']

theorem validate_of_ofEnvironment (h : ofEnvironment lookup = .ok s) : s.validate = .ok () := by
  unfold ofEnvironment at h
  cases hresult : ofVariables (.ofEnvironment lookup) with
  | ok taken =>
      rw [hresult] at h
      obtain rfl := Except.ok.inj h
      exact validate_of_ofVariables hresult
  | error problem =>
      rw [hresult] at h
      cases h

/-- **An environment is taken exactly if all that is demanded of it is met.** The settings are then
what its variables say, with the defaults for those that are not set, and they are valid. An
environment that is not taken is a failure to configure, and the complaint is about the first
demand that is not met: all texts are read before any value is found to be nothing. -/
theorem environment_taken_iff_demands_met (lookup : String → Option String) :
    ((∃ s, ofEnvironment lookup = .ok s) ↔ ∀ demand ∈ demands lookup, demand.met)
      ∧ (∀ s, ofEnvironment lookup = .ok s ↔
          (∀ demand ∈ demands lookup, demand.met) ∧ AsGiven lookup s)
      ∧ (∀ s, ofEnvironment lookup = .ok s → s.validate = .ok ())
      ∧ ∀ failure, ofEnvironment lookup = .error failure ↔
          ∃ demand, FirstUnmet (demands lookup) demand
            ∧ failure = .configuration demand.complaint := by
  refine ⟨⟨?_, ?_⟩, fun s => ofEnvironment_eq_ok_iff, fun s => validate_of_ofEnvironment,
    fun failure => ofEnvironment_eq_error_iff⟩
  · rintro ⟨s, htaken⟩
    exact (ofEnvironment_eq_ok_iff.mp htaken).1
  · intro hmet
    rcases ofEnvironment_cases lookup with ⟨s, htaken, -⟩ | ⟨demand, -, hunmet⟩
    · exact ⟨s, htaken⟩
    · exact absurd hmet hunmet.not_all_met

/-- Where no variable is set the settings are the default ones. -/
example : ofEnvironment (fun _ => none) = .ok {} := rfl

/-- A time that cannot be read is complained of before a count of nothing. -/
example : ofEnvironment (fun name =>
      [("A2DP_MAX_CONNECTIONS", " +00 "), ("A2DP_CONNECT_TIMEOUT_MS", "1s")].lookup name)
    = .error (.configuration "A2DP_CONNECT_TIMEOUT_MS: not a number: 1s") := by
  cbv

end Settings

end AudioLink
