import TypeNotation.NameMap.Json
import TypeNotation.Proofs.Json.Decoding
import TypeNotation.Proofs.NameMap.Writes

/-!
# Loading name maps

A text is loaded in one pass, each entry being added as soon as it is read. This is the same as
reading the text as a JSON value first and then making the entries of the members, in order: it
succeeds for the texts of objects of whose members each describes an entry, and the map is what
writing these entries makes of the empty one. What a member describes depends on its value only: a
string is another name, and an object tells a name and an origin or leaves them out.
-/

namespace TypeNotation

/-! ## Steps that succeed -/

section Steps

variable {ε α β : Type} {x : Except ε α} {b : β}

theorem exists_of_bind_eq_ok {f : α → Except ε β} (h : (x >>= f) = .ok b) :
    ∃ a, x = .ok a ∧ f a = .ok b := by
  cases x with
  | error error => cases h
  | ok a => exact ⟨a, rfl, h⟩

theorem exists_of_map_eq_ok {f : α → β} (h : x.map f = .ok b) : ∃ a, x = .ok a ∧ f a = b := by
  cases x with
  | error error => cases h
  | ok a => exact ⟨a, rfl, Except.ok.inj h⟩

end Steps

/-! ## Members one after the other -/

section Members

variable {α σ : Type} {value : JsonReader α} {member : σ → String → JsonReader σ}
  {first : Bool} {input rest : List Char} {state last : σ}

/-- The members of an object up to its closing brace are read in order, their values by the given
reader. -/
inductive ReadsMembers (value : JsonReader α) :
    Bool → List Char → List (String × α) → List Char → Prop
  | close {first : Bool} {input rest : List Char}
      (hclose : ∃ shorter, nextMember first input = .ok (.close rest shorter)) :
      ReadsMembers value first input [] rest
  | cons {first : Bool} {input behindQuote name behindName behind rest : List Char} {a : α}
      {members : List (String × α)}
      (hkey : ∃ shorter, nextMember first input = .ok (.key behindQuote shorter))
      (hname : JsonReader.take readStringBody behindQuote = .ok (name, behindName))
      (hvalue : JsonReader.take (readField value) behindName = .ok (a, behind))
      (hmembers : ReadsMembers value false behind members rest) :
      ReadsMembers value first input ((String.ofList name, a) :: members) rest

/-- What the reader of a member takes is a value, of which the next state is made, if it can be. -/
def MakesNext (value : JsonReader α) (next : σ → String → α → Option σ)
    (member : σ → String → JsonReader σ) : Prop :=
  ∀ state key input state' rest, JsonReader.take (member state key) input = .ok (state', rest) ↔
    ∃ a, JsonReader.take (readField value) input = .ok (a, rest) ∧ next state key a = some state'

/-- Either the object is closed and the state stands, or a key and its member are read, and the
others from the state that they leave. -/
theorem take_readMembers_eq_ok_iff :
    JsonReader.take (readMembers member state first) input = .ok (last, rest) ↔
      (∃ shorter, nextMember first input = .ok (.close rest shorter)) ∧ last = state ∨
      ∃ behindQuote name behindName next behind,
        (∃ shorter, nextMember first input = .ok (.key behindQuote shorter)) ∧
        JsonReader.take readStringBody behindQuote = .ok (name, behindName) ∧
        JsonReader.take (member state (String.ofList name)) behindName = .ok (next, behind) ∧
        JsonReader.take (readMembers member next false) behind = .ok (last, rest) := by
  constructor
  · intro h
    obtain ⟨shorter, h⟩ := JsonReader.take_eq_ok_iff.mp h
    rw [readMembers] at h
    obtain ⟨found, hnext, h⟩ := exists_of_bind_eq_ok h
    rcases found with ⟨left, hleft⟩ | ⟨behindQuote, hquote⟩
    · cases h
      exact .inl ⟨⟨hleft, hnext⟩, rfl⟩
    · obtain ⟨name, hname, h⟩ := exists_of_bind_eq_ok h
      obtain ⟨next, hmember, h⟩ := exists_of_bind_eq_ok h
      obtain ⟨tail, hmembers, h⟩ := exists_of_bind_eq_ok h
      cases h
      refine .inr ⟨behindQuote, name.value, name.rest, next.value, next.rest, ⟨hquote, hnext⟩, ?_⟩
      exact ⟨JsonReader.take_eq_ok_iff.mpr ⟨_, hname⟩, JsonReader.take_eq_ok_iff.mpr ⟨_, hmember⟩,
        JsonReader.take_eq_ok_iff.mpr ⟨_, hmembers⟩⟩
  · rintro (⟨⟨shorter, hnext⟩, rfl⟩ | ⟨behindQuote, name, behindName, next, behind,
      ⟨shorter, hnext⟩, hname, hmember, hmembers⟩)
    · rw [JsonReader.take, readMembers, hnext]
      rfl
    · obtain ⟨_, hname⟩ := JsonReader.take_eq_ok_iff.mp hname
      obtain ⟨_, hmember⟩ := JsonReader.take_eq_ok_iff.mp hmember
      obtain ⟨_, hmembers⟩ := JsonReader.take_eq_ok_iff.mp hmembers
      rw [JsonReader.take, readMembers, hnext]
      change Except.map _ (readStringBody behindQuote >>= _) = _
      rw [hname]
      change Except.map _ (member state (String.ofList name) behindName >>= _) = _
      rw [hmember]
      change Except.map _ (readMembers member next false behind >>= _) = _
      rw [hmembers]
      rfl

/-- Which members are read does not depend on the states, and the last state is made of them. -/
theorem take_readMembers_iff {next : σ → String → α → Option σ} (h : MakesNext value next member) :
    JsonReader.take (readMembers member state first) input = .ok (last, rest) ↔
      ∃ members, ReadsMembers value first input members rest ∧
        members.foldlM (fun state entry ↦ next state entry.1 entry.2) state = some last := by
  constructor
  · intro hread
    induction hlength : input.length using Nat.strongRecOn generalizing input first state with
    | ind length ih =>
      subst hlength
      rcases take_readMembers_eq_ok_iff.mp hread with ⟨hclose, rfl⟩ |
        ⟨behindQuote, name, behindName, state', behind, hkey, hname, hmember, hmembers⟩
      · exact ⟨[], .close hclose, rfl⟩
      · obtain ⟨a, hvalue, hnext⟩ := (h _ _ _ _ _).mp hmember
        -- each of the three readers leaves less
        obtain ⟨hquote, hfound⟩ := hkey
        obtain ⟨hlt, -⟩ := JsonReader.take_eq_ok_iff.mp hname
        obtain ⟨hlt', -⟩ := JsonReader.take_eq_ok_iff.mp hmember
        obtain ⟨members, hbehind, hlast⟩ := ih behind.length (by omega) hmembers rfl
        refine ⟨_, .cons ⟨hquote, hfound⟩ hname hvalue hbehind, ?_⟩
        rw [List.foldlM_cons, hnext]
        exact hlast
  · rintro ⟨members, hread, hlast⟩
    induction hread generalizing state with
    | close hclose =>
      exact take_readMembers_eq_ok_iff.mpr (.inl ⟨hclose, (Option.some.inj hlast).symm⟩)
    | cons hkey hname hvalue _ ih =>
      rw [List.foldlM_cons] at hlast
      obtain ⟨state', hnext, hlast⟩ := Option.bind_eq_some_iff.mp hlast
      refine take_readMembers_eq_ok_iff.mpr (.inr ⟨_, _, _, _, _, hkey, hname, ?_, ih hlast⟩)
      exact (h _ _ _ _ _).mpr ⟨_, hvalue, hnext⟩

end Members

/-! ## Objects -/

theorem take_readField_map {α β : Type} (reader : JsonReader α) (f : α → β) (input : List Char) :
    JsonReader.take (readField fun input ↦ (reader input).map (·.map f)) input =
      (JsonReader.take (readField reader) input).map fun (a, rest) ↦ (f a, rest) := by
  unfold JsonReader.take readField
  cases readColon input with
  | error error => rfl
  | ok colon =>
    change Except.map _ (((reader colon.rest).map _).map _) =
      Except.map _ (Except.map _ ((reader colon.rest).map _))
    cases reader colon.rest <;> rfl

/-- A member of any value is put behind the members before it. -/
theorem makesNext_readAnyValue (inner : Nat) :
    MakesNext (readAnyValue inner) (fun members key value ↦ some (members ++ [(key, value)]))
      fun members key ↦ readField fun value ↦
        (readAnyValue inner value).map (·.map fun v ↦ members ++ [(key, v)]) := by
  intro members key input members' rest
  rw [take_readField_map]
  constructor
  · intro h
    obtain ⟨⟨value, rest'⟩, hvalue, heq⟩ := exists_of_map_eq_ok h
    obtain ⟨rfl, rfl⟩ := Prod.mk.inj heq
    exact ⟨value, hvalue, rfl⟩
  · rintro ⟨value, hvalue, heq⟩
    rw [hvalue, ← Option.some.inj heq]
    rfl

/-- A member of a map adds the entry that its value describes. -/
theorem makesNext_readEntry (inner : Nat) :
    MakesNext (readAnyValue inner)
      (fun map raw value ↦ (NameMapping.ofJson? value).map (NameMap.put map raw))
      (readEntry inner) := by
  intro map raw input map' rest
  constructor
  · intro h
    obtain ⟨_, h⟩ := JsonReader.take_eq_ok_iff.mp h
    obtain ⟨⟨value, rest', _⟩, hvalue, h⟩ := exists_of_bind_eq_ok h
    cases hmapping : NameMapping.ofJson? value with
    | none =>
      simp only [hmapping] at h
      cases h
    | some mapping =>
      simp only [hmapping] at h
      cases h
      refine ⟨value, JsonReader.take_eq_ok_iff.mpr ⟨_, hvalue⟩, ?_⟩
      exact Option.map_eq_some_iff.mpr ⟨mapping, hmapping, rfl⟩
  · rintro ⟨value, hvalue, hnext⟩
    obtain ⟨mapping, hmapping, rfl⟩ := Option.map_eq_some_iff.mp hnext
    obtain ⟨shorter, hvalue⟩ := JsonReader.take_eq_ok_iff.mp hvalue
    refine JsonReader.take_eq_ok_iff.mpr ⟨shorter, ?_⟩
    simp only [readEntry, hvalue, bind, Except.bind, hmapping, Taken.map]

theorem foldlM_collect {α : Type} (before members : List α) :
    members.foldlM (fun before member ↦ some (before ++ [member])) before =
      some (before ++ members) := by
  induction members generalizing before with
  | nil =>
    rw [List.append_nil]
    rfl
  | cons member members ih =>
    have hbehind := ih (before ++ [member])
    rwa [List.append_assoc] at hbehind

/-- An object is read from an opening brace on, if there is a level left for it. -/
theorem take_readAnyValue_object_iff {levels : Nat} {input rest : List Char}
    {members : List (String × JsonValue)} :
    JsonReader.take (readAnyValue levels) input = .ok (.object members, rest) ↔
      ∃ inner body, levels = inner + 1 ∧ skipSpace input = '{' :: body ∧
        ReadsMembers (readAnyValue inner) true body members rest := by
  rw [readAnyValue, take_afterSpace]
  constructor
  · intro h
    generalize skipSpace input = text at h ⊢
    rw [JsonReader.take_eq_ok_iff] at h
    obtain ⟨_, h⟩ := h
    -- but for a brace, what the first character begins is no object
    split at h
    · cases h
    iterate 5
      · obtain ⟨taken, -, heq⟩ := exists_of_map_eq_ok h
        cases heq
    · split at h
      · cases h
      · obtain ⟨taken, -, heq⟩ := exists_of_map_eq_ok h
        cases heq
    · split at h
      · cases h
      · next inner =>
        obtain ⟨taken, hread, heq⟩ := exists_of_map_eq_ok h
        cases heq
        obtain ⟨members, hmembers, hcollect⟩ :=
          (take_readMembers_iff (makesNext_readAnyValue inner)).mp
            (JsonReader.take_eq_ok_iff.mpr ⟨_, hread⟩)
        obtain rfl : members = taken.value :=
          Option.some.inj ((foldlM_collect [] members).symm.trans hcollect)
        exact ⟨inner, _, rfl, rfl, hmembers⟩
    · split at h
      · obtain ⟨taken, -, heq⟩ := exists_of_map_eq_ok h
        cases heq
      · cases h
  · rintro ⟨inner, body, rfl, hskip, hmembers⟩
    obtain ⟨_, hread⟩ := JsonReader.take_eq_ok_iff.mp
      ((take_readMembers_iff (makesNext_readAnyValue inner)).mpr
        ⟨members, hmembers, foldlM_collect [] members⟩)
    rw [hskip]
    change Except.map _ (Except.map _ (readMembers _ [] true body)) = _
    rw [hread]
    rfl

theorem take_readNameMap_iff {levels : Nat} {input rest : List Char} {map : NameMap} :
    JsonReader.take (readNameMap levels) input = .ok (map, rest) ↔
      ∃ inner body members, levels = inner + 1 ∧ skipSpace input = '{' :: body ∧
        ReadsMembers (readAnyValue inner) true body members rest ∧
        members.foldlM (fun map member ↦ (NameMapping.ofJson? member.2).map (map.put member.1))
          NameMap.empty = some map := by
  rw [readNameMap, take_afterSpace]
  constructor
  · intro h
    generalize skipSpace input = text at h ⊢
    rw [JsonReader.take_eq_ok_iff] at h
    obtain ⟨_, h⟩ := h
    split at h
    · split at h
      · cases h
      · next inner =>
        obtain ⟨taken, hread, heq⟩ := exists_of_map_eq_ok h
        cases heq
        obtain ⟨members, hmembers, hmap⟩ :=
          (take_readMembers_iff (makesNext_readEntry inner)).mp
            (JsonReader.take_eq_ok_iff.mpr ⟨_, hread⟩)
        exact ⟨inner, _, members, rfl, rfl, hmembers, hmap⟩
    · cases h
  · rintro ⟨inner, body, members, rfl, hskip, hmembers, hmap⟩
    obtain ⟨_, hread⟩ := JsonReader.take_eq_ok_iff.mp
      ((take_readMembers_iff (makesNext_readEntry inner)).mpr ⟨members, hmembers, hmap⟩)
    rw [hskip]
    change Except.map _ (Except.map _ (readMembers _ NameMap.empty true body)) = _
    rw [hread]
    rfl

/-! ## What a value describes -/

/-- The values of the members with a key, in order. -/
def valuesAt (key : String) (members : List (String × JsonValue)) : List JsonValue :=
  (members.filter (·.1 = key)).map Prod.snd

/-- What the values under one key tell: a text, or that there is none. There may not be two of
them. -/
inductive TellsText : List JsonValue → Option String → Prop
  | absent : TellsText [] none
  | null : TellsText [.null] none
  | text (value : String) : TellsText [.string value] (some value)

/-- The JSON value describes what is written for a name. Other members of an object are of no
account, whatever they are. -/
inductive Describes : JsonValue → NameMapping → Prop
  | rename (name : String) : Describes (.string name) (.rename name)
  | detailed {members : List (String × JsonValue)} {name origin : Option String}
      (hname : TellsText (valuesAt "name" members) name)
      (horigin : TellsText (valuesAt "from" members) origin) :
      Describes (.object members) (.detailed name origin)

/-- A member of an object describes an entry under its key. -/
inductive DescribesEntry : String × JsonValue → String × NameMapping → Prop
  | mk {raw : String} {value : JsonValue} {mapping : NameMapping} (h : Describes value mapping) :
      DescribesEntry (raw, value) (raw, mapping)

/-- A part of an entry, if it has been read, and the same part behind the values under its key. It
cannot be read again. -/
inductive ReadsPart : Option (Option String) → List JsonValue → Option (Option String) → Prop
  | done (part : Option (Option String)) : ReadsPart part [] part
  | read {value : JsonValue} {text : Option String} (htext : value.nullableText? = some text) :
      ReadsPart none [value] (some text)

theorem readsPart_cons_iff {part part' : Option (Option String)} {value : JsonValue}
    {values : List JsonValue} :
    ReadsPart part (value :: values) part' ↔
      part = none ∧
        ∃ text, value.nullableText? = some text ∧ ReadsPart (some text) values part' := by
  constructor
  · rintro (_ | htext)
    exact ⟨rfl, _, htext, .done _⟩
  · rintro ⟨rfl, text, htext, _ | _⟩
    exact .read htext

theorem tellsText_iff {values : List JsonValue} {text : Option String} :
    TellsText values text ↔ ∃ part, ReadsPart none values part ∧ part.getD none = text := by
  constructor
  · rintro (_ | _ | value)
    · exact ⟨_, .done none, rfl⟩
    · exact ⟨_, .read rfl, rfl⟩
    · exact ⟨_, .read rfl, rfl⟩
  · rintro ⟨part, _ | @⟨value, text', htext⟩, rfl⟩
    · exact .absent
    · cases value <;> cases htext
      · exact .null
      · exact .text _

/-- Reading a part, unless it has been read, and then the other members. -/
theorem bind_part_eq_some_iff {part : Option (Option String)} {value : JsonValue}
    {add : Option String → MappingParts} {members : List (String × JsonValue)}
    {parts : MappingParts} :
    (if part.isSome then none else value.nullableText?.map add).bind (·.addAll? members) =
        some parts ↔
      part = none ∧ ∃ text, value.nullableText? = some text ∧
        (add text).addAll? members = some parts := by
  rcases part with _ | part
  · simp [Option.bind_eq_some_iff]
  · simp

theorem valuesAt_cons (key key' : String) (value : JsonValue)
    (members : List (String × JsonValue)) :
    valuesAt key ((key', value) :: members) =
      if key' = key then value :: valuesAt key members else valuesAt key members := by
  by_cases h : key' = key <;> simp [valuesAt, h]

/-- Each part of an entry is read from the values under its key. -/
theorem MappingParts.addAll?_eq_some_iff {parts parts' : MappingParts}
    {members : List (String × JsonValue)} :
    parts.addAll? members = some parts' ↔
      ReadsPart parts.name (valuesAt "name" members) parts'.name ∧
        ReadsPart parts.origin (valuesAt "from" members) parts'.origin := by
  induction members generalizing parts with
  | nil =>
    obtain ⟨name, origin⟩ := parts
    obtain ⟨name', origin'⟩ := parts'
    constructor
    · rintro ⟨⟩
      exact ⟨.done _, .done _⟩
    · rintro ⟨_ | _, _ | _⟩
      rfl
  | cons member members ih =>
    obtain ⟨key, value⟩ := member
    rw [MappingParts.addAll?, MappingParts.add?, valuesAt_cons, valuesAt_cons]
    by_cases hname : key = "name"
    · have horigin : key ≠ "from" := by
        rw [hname]
        decide
      rw [if_pos hname, if_pos hname, if_neg horigin, bind_part_eq_some_iff, readsPart_cons_iff]
      simp only [ih]
      tauto
    · by_cases horigin : key = "from"
      · rw [if_neg hname, if_neg hname, if_pos horigin, if_pos horigin, bind_part_eq_some_iff,
          readsPart_cons_iff]
        simp only [ih]
        tauto
      · rw [if_neg hname, if_neg hname, if_neg horigin, if_neg horigin, Option.bind_some, ih]

theorem NameMapping.ofJson?_eq_some_iff {value : JsonValue} {mapping : NameMapping} :
    NameMapping.ofJson? value = some mapping ↔ Describes value mapping := by
  constructor
  · intro h
    unfold NameMapping.ofJson? at h
    split at h
    · next name =>
      obtain rfl := Option.some.inj h
      exact .rename name
    · obtain ⟨parts, hparts, rfl⟩ := Option.map_eq_some_iff.mp h
      obtain ⟨hname, horigin⟩ := MappingParts.addAll?_eq_some_iff.mp hparts
      exact .detailed (tellsText_iff.mpr ⟨_, hname, rfl⟩) (tellsText_iff.mpr ⟨_, horigin, rfl⟩)
    · cases h
  · rintro (name | ⟨hname, horigin⟩)
    · rfl
    · obtain ⟨name, hnamePart, rfl⟩ := tellsText_iff.mp hname
      obtain ⟨origin, horiginPart, rfl⟩ := tellsText_iff.mp horigin
      exact Option.map_eq_some_iff.mpr
        ⟨⟨name, origin⟩, MappingParts.addAll?_eq_some_iff.mpr ⟨hnamePart, horiginPart⟩, rfl⟩

/-! ## What a text describes -/

/-- Making entries of members, in order, succeeds if each member describes one, and writes them. -/
theorem foldlM_put_eq_some_iff {map map' : NameMap} {members : List (String × JsonValue)} :
    members.foldlM (fun map member ↦ (NameMapping.ofJson? member.2).map (map.put member.1)) map =
        some map' ↔
      ∃ writes, List.Forall₂ DescribesEntry members writes ∧ map' = map.putAll writes := by
  induction members generalizing map with
  | nil =>
    constructor
    · intro h
      exact ⟨[], .nil, (Option.some.inj h).symm⟩
    · rintro ⟨writes, hwrites, rfl⟩
      obtain rfl := List.forall₂_nil_left_iff.mp hwrites
      rfl
  | cons member members ih =>
    obtain ⟨raw, value⟩ := member
    rw [List.foldlM_cons]
    constructor
    · intro h
      obtain ⟨next, hnext, hbehind⟩ := Option.bind_eq_some_iff.mp h
      obtain ⟨mapping, hmapping, rfl⟩ := Option.map_eq_some_iff.mp hnext
      obtain ⟨writes, hwrites, rfl⟩ := ih.mp hbehind
      have hentry : DescribesEntry (raw, value) (raw, mapping) :=
        .mk (NameMapping.ofJson?_eq_some_iff.mp hmapping)
      exact ⟨(raw, mapping) :: writes, .cons hentry hwrites, rfl⟩
    · rintro ⟨writes, hwrites, rfl⟩
      obtain ⟨entry, behind, hentry, hbehind, rfl⟩ := List.forall₂_cons_left_iff.mp hwrites
      obtain ⟨hvalue⟩ := hentry
      rename_i mapping
      refine Option.bind_eq_some_iff.mpr ⟨map.put raw mapping, ?_, ih.mpr ⟨behind, hbehind, rfl⟩⟩
      exact Option.map_eq_some_iff.mpr ⟨mapping, NameMapping.ofJson?_eq_some_iff.mpr hvalue, rfl⟩

/-- The text is read as a JSON object whose members describe the entries, in order and with those
that are written over later. -/
def Loads (text : String) (writes : List (String × NameMapping)) : Prop :=
  ∃ members, readWhole (readAnyValue maxLevels) text = .ok (.object members) ∧
    List.Forall₂ DescribesEntry members writes

/-- Any of the texts that stand for an object loads what its members describe, if it is not nested
too deep. -/
theorem loads_of_isJson {text : String} {members : List (String × JsonValue)}
    {writes : List (String × NameMapping)} (htext : IsJson text.toList (.object members))
    (hdepth : (JsonValue.object members).depth ≤ maxLevels)
    (hwrites : List.Forall₂ DescribesEntry members writes) : Loads text writes :=
  ⟨members, (decodes_readAnyValue hdepth).readWhole htext, hwrites⟩

theorem readWhole_eq_ok_iff {α : Type} {reader : JsonReader α} {text : String} {a : α} :
    readWhole reader text = .ok a ↔
      ∃ left, reader.take text.toList = .ok (a, left) ∧ skipSpace left = [] := by
  constructor
  · intro h
    obtain ⟨⟨value, left⟩, htake, h⟩ := exists_of_bind_eq_ok h
    cases hleft : skipSpace left with
    | nil =>
      simp only [hleft] at h
      obtain rfl := Except.ok.inj h
      exact ⟨left, htake, hleft⟩
    | cons c rest =>
      simp only [hleft] at h
      cases h
  · rintro ⟨left, htake, hleft⟩
    simp only [readWhole, htake, bind, Except.bind, hleft]

/-- Loading reads the text as a value and writes the entries that its members describe into an empty
map; nothing else is loaded. -/
theorem NameMap.ofJson_eq_ok_iff {text : String} {map : NameMap} :
    NameMap.ofJson text = .ok map ↔
      ∃ writes, Loads text writes ∧ map = NameMap.empty.putAll writes := by
  rw [NameMap.ofJson, readWhole_eq_ok_iff]
  constructor
  · rintro ⟨left, htake, hleft⟩
    obtain ⟨inner, body, members, hlevels, hskip, hmembers, hmap⟩ := take_readNameMap_iff.mp htake
    obtain ⟨writes, hwrites, rfl⟩ := foldlM_put_eq_some_iff.mp hmap
    refine ⟨writes, ⟨members, readWhole_eq_ok_iff.mpr ⟨left, ?_, hleft⟩, hwrites⟩, rfl⟩
    exact take_readAnyValue_object_iff.mpr ⟨inner, body, hlevels, hskip, hmembers⟩
  · rintro ⟨writes, ⟨members, hread, hwrites⟩, rfl⟩
    obtain ⟨left, htake, hleft⟩ := readWhole_eq_ok_iff.mp hread
    obtain ⟨inner, body, hlevels, hskip, hmembers⟩ := take_readAnyValue_object_iff.mp htake
    refine ⟨left, take_readNameMap_iff.mpr ⟨inner, body, members, hlevels, hskip, hmembers, ?_⟩,
      hleft⟩
    exact foldlM_put_eq_some_iff.mpr ⟨writes, hwrites, rfl⟩

/-- Loading fails exactly for the texts that describe no map. -/
theorem NameMap.ofJson_eq_error_iff {text : String} :
    (∃ error, NameMap.ofJson text = .error error) ↔ ∀ loaded, ¬Loads text loaded := by
  constructor
  · rintro ⟨error, hread⟩ loaded hloads
    cases hread.symm.trans (NameMap.ofJson_eq_ok_iff.mpr ⟨loaded, hloads, rfl⟩)
  · intro h
    cases hread : NameMap.ofJson text with
    | error error => exact ⟨error, rfl⟩
    | ok map =>
      obtain ⟨loaded, hloads, -⟩ := NameMap.ofJson_eq_ok_iff.mp hread
      exact absurd hloads (h loaded)

theorem NameMap.toOption_ofJson_of_forall_not {text : String} (h : ∀ writes, ¬Loads text writes) :
    (NameMap.ofJson text).toOption = none := by
  obtain ⟨error, hread⟩ := NameMap.ofJson_eq_error_iff.mpr h
  rw [hread]
  rfl

end TypeNotation
