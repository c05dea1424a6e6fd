import Mathlib.Data.List.Nodup
import AudioLink.Proofs.Canonical
import AudioLink.Wire.Reports

/-!
# What is written is read back

A codec is lawful if reading undoes writing. The laws are put together the way the codecs are:
words, numbers and addresses first, then lists, sets and maps of lawful things, and the records
last, whose fields are found by their names. Addresses carry the sets and maps: an address has
one text, so the names of a map's entries are as many as its addresses, and none is read as
another.
-/

namespace AudioLink

namespace Wire

/-- What is written is read back. -/
class LawfulCodec (α : Type) [Codec α] : Prop where
  decode_encode (a : α) : decode (encode a) = some a

export LawfulCodec (decode_encode)

/-! ## Words and numbers -/

/-- A word of the vocabulary is found under its name, where no two words share one. -/
theorem decodeWord_name {α : Type} {name : α → String} {vocabulary : List α}
    (hwords : (vocabulary.map name).Nodup) {a : α} (ha : a ∈ vocabulary) :
    decodeWord name vocabulary (.text (name a)) = some a := by
  show vocabulary.find? (name · = name a) = some a
  cases hfound : vocabulary.find? (name · = name a) with
  | none => exact absurd (List.find?_eq_none.mp hfound a ha) (by simp)
  | some b =>
      have hb : name b = name a := by simpa using List.find?_some hfound
      rw [List.inj_on_of_nodup_map hwords (List.mem_of_find?_eq_some hfound) ha hb]

theorem natural?_whole {limit n : Nat} (h : n < limit) :
    (Value.whole n).natural? limit = some n := by
  simp [Value.natural?, h]

instance : LawfulCodec Bool := ⟨fun _ => rfl⟩

instance : LawfulCodec UInt8 where
  decode_encode n := by
    show ((Value.whole n.toNat).natural? UInt8.size).map UInt8.ofNat = some n
    rw [natural?_whole n.toNat_lt_size, Option.map_some, UInt8.ofNat_toNat]

instance : LawfulCodec UInt32 where
  decode_encode n := by
    show ((Value.whole n.toNat).natural? UInt32.size).map UInt32.ofNat = some n
    rw [natural?_whole n.toNat_lt_size, Option.map_some, UInt32.ofNat_toNat]

instance : LawfulCodec UInt64 where
  decode_encode n := by
    show ((Value.whole n.toNat).natural? UInt64.size).map UInt64.ofNat = some n
    rw [natural?_whole n.toNat_lt_size, Option.map_some, UInt64.ofNat_toNat]

/-! ## Addresses, and what is kept by them -/

instance : LawfulCodec Address where
  decode_encode a := by
    show (Address.parse a.text).toOption = some a
    rw [Address.parse_text]
    rfl

/-- An address is never written as nothing, so that none can be told from some. -/
instance : LawfulCodec (Option Address) where
  decode_encode
    | none => rfl
    | some a => congrArg (Option.map some) (decode_encode a)

variable {α : Type} [Codec α] [LawfulCodec α]

instance : LawfulCodec (List α) where
  decode_encode as := by
    show (as.map encode).mapM decode = some as
    rw [mapM_eq_some_iff, List.forall₂_map_left_iff, List.forall₂_same]
    exact fun a _ => decode_encode a

theorem foldl_insert_toList (s : AddressSet) :
    s.toList.foldl (fun s a => s.insert a) ∅ = s := by
  have hmany : ∀ (addresses : List Address) (s : AddressSet),
      addresses.foldl (fun s a => s.insert a) s = s.insertMany addresses := by
    intro addresses
    induction addresses with
    | nil => exact fun s => Std.ExtTreeSet.insertMany_nil.symm
    | cons a rest ih =>
        intro s
        rw [List.foldl_cons, ih, Std.ExtTreeSet.insertMany_cons]
  rw [hmany]
  apply Std.ExtTreeSet.ext_mem
  intro a
  rw [Std.ExtTreeSet.mem_insertMany_list, List.contains_iff_mem, Std.ExtTreeSet.mem_toList]
  exact or_iff_right Std.ExtTreeSet.not_mem_empty

instance : LawfulCodec AddressSet where
  decode_encode s := by
    show (decode (encode s.toList)).map (fun addresses : List Address =>
      addresses.foldl (fun (s : AddressSet) a => s.insert a) ∅) = some s
    rw [decode_encode, Option.map_some, foldl_insert_toList]

theorem foldl_insert_entries {β : Type} (m : AddressMap β) :
    m.toList.foldl (fun m entry => m.insert entry.1 entry.2) ∅ = m := by
  have hmany : ∀ (entries : List (Address × β)) (m : AddressMap β),
      entries.foldl (fun m entry => m.insert entry.1 entry.2) m = m.insertMany entries := by
    intro entries
    induction entries with
    | nil => exact fun m => Std.ExtTreeMap.insertMany_nil.symm
    | cons entry rest ih =>
        intro m
        rw [List.foldl_cons, ih, Std.ExtTreeMap.insertMany_cons]
  rw [hmany]
  apply Std.ExtTreeMap.ext_getElem?
  intro a
  cases hvalue : m[a]? with
  | none =>
      have hnone : (m.toList.map Prod.fst).contains a = false := by
        refine Bool.eq_false_iff.mpr fun h => ?_
        obtain ⟨⟨b, v⟩, hmem, rfl⟩ := List.mem_map.mp (List.contains_iff_mem.mp h)
        rw [Std.ExtTreeMap.mem_toList_iff_getElem?_eq_some.mp hmem] at hvalue
        cases hvalue
      rw [Std.ExtTreeMap.getElem?_insertMany_list_of_contains_eq_false hnone]
      rfl
  | some v =>
      exact Std.ExtTreeMap.getElem?_insertMany_list_of_mem Std.ReflCmp.compare_self
        Std.ExtTreeMap.distinct_keys_toList
        (Std.ExtTreeMap.mem_toList_iff_getElem?_eq_some.mpr hvalue)

instance : LawfulCodec (AddressMap α) where
  decode_encode m := by
    have hentries : (m.toList.map fun entry => (entry.1.text, encode entry.2)).mapM decodeEntry
        = some m.toList := by
      rw [mapM_eq_some_iff, List.forall₂_map_left_iff, List.forall₂_same]
      rintro ⟨a, v⟩ -
      simp [decodeEntry, Address.parse_text, Except.toOption, decode_encode]
    show ((m.toList.map fun entry => (entry.1.text, encode entry.2)).mapM decodeEntry).map
      (fun entries : List (Address × α) =>
        entries.foldl (fun (m : AddressMap α) entry => m.insert entry.1 entry.2) ∅) = some m
    rw [hentries, Option.map_some, foldl_insert_entries]

/-! ## Records -/

variable {fields : List Field} {entries : List (String × Value)}

/-- The fields that were written are found by their names. -/
theorem fields?_written (hnames : entries.map Prod.fst = fields.map Field.name)
    (hnodup : (fields.map Field.name).Nodup) :
    (Value.named entries).fields? fields = some (entries.map Prod.snd) := by
  show fields.mapM (Value.field? entries) = some (entries.map Prod.snd)
  have hlength : fields.length = (entries.map Prod.snd).length := by
    have h := congrArg List.length hnames
    simpa using h.symm
  rw [mapM_eq_some_iff, List.forall₂_iff_zip]
  refine ⟨hlength, fun {f v} hfv => ?_⟩
  have hentry : (f.name, v) ∈ entries := by
    have hzip := List.mem_map_of_mem (f := Prod.map Field.name id) hfv
    rw [← List.zip_map_left, ← hnames, ← List.unzip_fst, ← List.unzip_snd, List.zip_unzip] at hzip
    exact hzip
  obtain ⟨before, after, rfl⟩ := List.append_of_mem hentry
  have hlookup : (before ++ (f.name, v) :: after).lookup f.name = some v := by
    rw [← hnames, List.map_append, List.map_cons] at hnodup
    refine List.lookup_eq_some_iff.mpr ⟨before, after, rfl, fun entry hentry => ?_⟩
    -- a name that stands before is another one
    exact bne_iff_ne.mpr fun h => (List.nodup_append.mp hnodup).2.2 entry.1
      (List.mem_map_of_mem hentry) f.name List.mem_cons_self h.symm
  rw [Value.field?, hlookup]
  rfl

theorem record?_written (hnames : entries.map Prod.fst = fields.map Field.name)
    (hnodup : (fields.map Field.name).Nodup) :
    (Value.named entries).record? fields = some (entries.map Prod.snd) :=
  fields?_written hnames hnodup

theorem closedRecord?_written (hnames : entries.map Prod.fst = fields.map Field.name)
    (hnodup : (fields.map Field.name).Nodup) :
    (Value.named entries).closedRecord? fields = some (entries.map Prod.snd) := by
  have hall : entries.all fun entry => fields.any (·.name = entry.1) := by
    rw [List.all_eq_true]
    intro entry hentry
    have hname : entry.1 ∈ fields.map Field.name := hnames ▸ List.mem_map_of_mem hentry
    obtain ⟨f, hf, hfname⟩ := List.mem_map.mp hname
    exact List.any_eq_true.mpr ⟨f, hf, decide_eq_true hfname⟩
  exact (if_pos hall).trans (fields?_written hnames hnodup)

end Wire

open Wire

instance : LawfulCodec LinkState where
  decode_encode s := decodeWord_name (by decide) (by cases s <;> decide)

instance : LawfulCodec StreamState where
  decode_encode s := decodeWord_name (by decide) (by cases s <;> decide)

instance : LawfulCodec PlayState where
  decode_encode s := decodeWord_name (by decide) (by cases s <;> decide)

instance : LawfulCodec Activity where
  decode_encode a := decodeWord_name (by decide) (by cases a <;> decide)

/-!
## Formats, durations, settings and snapshots

Each record is read from its fields by a lemma over whatever values they have; only the instance
says that they are the written ones.
-/

theorem StreamFormat.decode_of_fields {f : StreamFormat} {v rate channels : Value}
    (hrecord : v.record? [required "sample_rate", required "channel_count"]
      = some [rate, channels])
    (hrate : decode rate = some f.sampleRate) (hchannels : decode channels = some f.channels) :
    decode v = some f := by
  show Option.bind (v.record? _) _ = some f
  rw [hrecord]
  simp [hrate, hchannels]

instance : LawfulCodec StreamFormat where
  decode_encode f := StreamFormat.decode_of_fields (record?_written rfl (by decide))
    (decode_encode f.sampleRate) (decode_encode f.channels)

theorem Duration.decode_of_fields {d : Duration} {v seconds nanos : Value}
    (hrecord : v.closedRecord? [required "secs", required "nanos"] = some [seconds, nanos])
    (hseconds : seconds.natural? UInt64.size = some d.seconds.toNat)
    (hnanos : nanos.natural? UInt32.size = some d.nanos) : decode v = some d := by
  show Option.bind (v.closedRecord? _) _ = some d
  rw [hrecord]
  simp [hseconds, hnanos, Duration.ofParts?_parts]

instance : LawfulCodec Duration where
  decode_encode d := Duration.decode_of_fields (closedRecord?_written rfl (by decide))
    (natural?_whole d.seconds.toNat_lt_size)
    (natural?_whole (Nat.lt_trans d.nanos_lt (by decide)))

theorem Settings.decode_of_fields {s : Settings} {v capacity quiet timeout : Value}
    (hrecord : v.record?
        [required "max_connections", required "quiet_mode", required "connect_timeout"]
      = some [capacity, quiet, timeout])
    (hcapacity : decode capacity = some s.capacity) (hquiet : decode quiet = some s.quiet)
    (htimeout : decode timeout = some s.timeout) : decode v = some s := by
  show Option.bind (v.record? _) _ = some s
  rw [hrecord]
  simp [hcapacity, hquiet, htimeout]

instance : LawfulCodec Settings where
  decode_encode s := Settings.decode_of_fields (record?_written rfl (by decide))
    (decode_encode s.capacity) (decode_encode s.quiet) (decode_encode s.timeout)

theorem Snapshot.decode_of_fields {s : Snapshot}
    {v activity members primary outgoing incoming leaving playing formats : Value}
    (hrecord : v.record? Snapshot.fields
      = some [activity, members, primary, outgoing, incoming, leaving, playing, formats])
    (hactivity : decode activity = some s.activity) (hmembers : decode members = some s.members)
    (hprimary : decode primary = some s.primary) (houtgoing : decode outgoing = some s.outgoing)
    (hincoming : decode incoming = some s.incoming) (hleaving : decode leaving = some s.leaving)
    (hplaying : decode playing = some s.playing) (hformats : decode formats = some s.formats) :
    decode v = some s := by
  show Option.bind (v.record? _) _ = some s
  rw [hrecord]
  simp [hactivity, hmembers, hprimary, houtgoing, hincoming, hleaving, hplaying, hformats]

instance : LawfulCodec Snapshot where
  decode_encode s := Snapshot.decode_of_fields (record?_written rfl (by decide))
    (decode_encode s.activity) (decode_encode s.members) (decode_encode s.primary)
    (decode_encode s.outgoing) (decode_encode s.incoming) (decode_encode s.leaving)
    (decode_encode s.playing) (decode_encode s.formats)

/-! ## Events and notices -/

instance : LawfulCodec StackEvent where
  decode_encode e := by
    cases e with
    | link d state =>
        show StackEvent.ofFields? "ConnectionStateChanged" _ = _
        simp [StackEvent.ofFields?, fields?_written, required, decode_encode]
    | stream d state =>
        show StackEvent.ofFields? "AudioStateChanged" _ = _
        simp [StackEvent.ofFields?, fields?_written, required, decode_encode]
    | format d negotiated =>
        show StackEvent.ofFields? "AudioConfigChanged" _ = _
        simp [StackEvent.ofFields?, fields?_written, required, decode_encode]
    | permission d =>
        show StackEvent.ofFields? "CheckConnectionPriority" _ = _
        simp [StackEvent.ofFields?, fields?_written, required, decode_encode]

instance : LawfulCodec Notice where
  decode_encode n := by
    cases n with
    | link d old new =>
        show Notice.ofFields? "ConnectionStateChanged" _ = _
        simp [Notice.ofFields?, fields?_written, required, decode_encode]
    | play d old new =>
        show Notice.ofFields? "AudioStateChanged" _ = _
        simp [Notice.ofFields?, fields?_written, required, decode_encode]
    | format d negotiated =>
        show Notice.ofFields? "AudioConfigChanged" _ = _
        simp [Notice.ofFields?, fields?_written, required, decode_encode]

/-! ## The one written form -/

/-- **Addresses have one text, and what is written of anything with addresses in it is read
back.** An address is read back from its text; a text that is read is an ASCII one, and what is
written for it is the text without the blanks around it, in capitals and with colons, so that two
texts are the same address exactly if they agree in that form. Events, notices, snapshots, whose
sets and maps are kept by addresses, and settings are read back as they were. -/
theorem written_form_is_read_back :
    (∀ a : Address, Address.parse a.text = .ok a)
      ∧ (∀ s a, Address.parse s = .ok a →
          a.text = Address.canonical s ∧ ∀ c ∈ Text.trim s.toList, c.toNat < 128)
      ∧ (∀ s s' a a', Address.parse s = .ok a → Address.parse s' = .ok a' →
          (a = a' ↔ Address.canonical s = Address.canonical s'))
      ∧ (∀ a : Address, decode (encode a) = some a)
      ∧ (∀ e : StackEvent, decode (encode e) = some e)
      ∧ (∀ n : Notice, decode (encode n) = some n)
      ∧ (∀ s : Snapshot, decode (encode s) = some s)
      ∧ (∀ s : Settings, decode (encode s) = some s) :=
  ⟨Address.parse_text,
    fun _ _ h => ⟨Address.text_of_parse h, Address.ascii_of_parse h⟩,
    fun _ _ _ _ => Address.eq_iff_canonical,
    decode_encode, decode_encode, decode_encode, decode_encode, decode_encode⟩

end AudioLink
