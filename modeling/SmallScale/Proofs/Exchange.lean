import SmallScale.Exchange
import SmallScale.Proofs.Json.Shape
import SmallScale.Proofs.Model.Description
import SmallScale.Proofs.Text.Pieces
import SmallScale.Proofs.Word.Digits

namespace SmallScale

/-!
# Exchanged values

What is written for a value of the domain is read back as that value, with every library
that parses what it prints.  The counts inside must be numbers that the host can hold, 64
bits wide, and speeds 32 bits; this is asked of nothing else.  Words may have any width,
stores any words, and what is read back of a model has passed its check again.
-/

/-! ## Texts -/

/-- The library parses what it prints, numbers of 64 bits among it, as long as it is nested
at most 127 levels deep. -/
def JsonLibrary.Faithful (library : JsonLibrary) : Prop :=
  ∀ value : Json, value.Plain 127 → library.parse? (library.print value) = some (value, true)

theorem JsonLibrary.faithful_builtIn : JsonLibrary.builtIn.Faithful := by
  intro value plain
  change (Json.readPrefix value.write.toList).map _ = _
  rw [plain.readPrefix_write]
  rfl

section

variable {library : JsonLibrary} {α : Type} {value : Json} {result : α}

/-- A plain form is read back from its text if the value is read back from the form. -/
theorem readExchangedBy_print (faithful : library.Faithful)
    {form : Json → Except ExchangeError α} (plain : value.Plain 127)
    (formed : form value = .ok result) :
    readExchangedBy library form (library.print value) = .ok result := by
  rw [readExchangedBy, faithful value plain]
  dsimp only
  rw [formed]
  rfl

theorem readExchangedBy_shapeOnly (faithful : library.Faithful) {form? : Json → Option α}
    (plain : value.Plain 127) (formed : form? value = some result) :
    readExchangedBy library (shapeOnly form?) (library.print value) = .ok result := by
  apply readExchangedBy_print faithful plain
  rw [shapeOnly, formed]

end

/-! ## Words and names -/

namespace Word

theorem plain_toJson {levels : Nat} (w : Word) : w.toJson.Plain levels :=
  .string

theorem trim_digits (bits : List Bool) :
    Text.trim (bits.map GlyphStyle.binary.glyph) = bits.map GlyphStyle.binary.glyph := by
  cases bits with
  | nil => rfl
  | cons bit others =>
      have solidGlyph : ∀ bit, Text.isBlank (GlyphStyle.binary.glyph bit) = false := by decide
      apply Text.Solid.trim_eq
      refine ⟨List.cons_ne_nil _ _, fun c drawn => ?_⟩
      rcases List.mem_map.mp drawn with ⟨bit, _, rfl⟩
      exact solidGlyph bit

theorem ofText_toDigits (w : Word) : ofText w.toDigits = .ok w := by
  rw [ofText, toDigits, render, String.toList_ofList, ofChars_eq_ok_iff, trim_digits]
  exact Or.inl rfl

theorem ofJson_toJson (w : Word) : ofJson w.toJson = .ok w := by
  rw [ofJson, toJson, Json.text?_ofString]
  dsimp only
  rw [ofText_toDigits]
  rfl

theorem ofJson?_toJson (w : Word) : ofJson? w.toJson = some w := by
  rw [ofJson?, ofJson_toJson]
  rfl

end Word

namespace Mnemonic

theorem plain_toJson {levels : Nat} (m : Mnemonic) : m.toJson.Plain levels :=
  .string

theorem ofJson?_toJson (m : Mnemonic) : ofJson? m.toJson = some m := by
  cases m <;> decide

end Mnemonic

namespace RunState

theorem plain_toJson {levels : Nat} (state : RunState) : state.toJson.Plain levels :=
  .string

theorem ofJson?_toJson (state : RunState) : ofJson? state.toJson = some state := by
  cases state <;> decide

end RunState

theorem nat64?_ofNat {n : Nat} (host : n < UInt64.size) : (Json.ofNat n).nat64? = some n :=
  Json.natBelow?_ofNat host

theorem nat32?_ofNat {n : Nat} (host : n < UInt32.size) : (Json.ofNat n).nat32? = some n :=
  Json.natBelow?_ofNat host

/-! ## Records -/

namespace Instruction

theorem plain_toJson {levels : Nat} {i : Instruction} (host : i.operand < UInt64.size) :
    i.toJson.Plain (levels + 1) := by
  have operand : (Json.ofNat i.operand).Plain levels := .number host
  apply Json.Plain.object
  · simp
  · simp [Mnemonic.plain_toJson, operand]

theorem ofJson?_toJson {i : Instruction} (host : i.operand < UInt64.size) :
    ofJson? i.toJson = some i := by
  have parts : i.toJson.parts? ["mnemonic", "operand"] =
      some [some i.mnemonic.toJson, some (Json.ofNat i.operand)] :=
    Json.parts?_ofMembers (show ["mnemonic", "operand"].Nodup by decide)
  rw [ofJson?, parts, Option.bind_eq_bind, Option.bind_some]
  dsimp only
  simp only [Option.bind_eq_bind, Option.bind_some, Mnemonic.ofJson?_toJson, nat64?_ofNat host]
  rfl

end Instruction

namespace Executed

/-- The numbers in an executed instruction are those of the host. -/
structure HostSized (e : Executed) : Prop where
  address : e.address < UInt64.size
  operand : e.operand < UInt64.size

theorem plain_toJson {levels : Nat} {e : Executed} (host : e.HostSized) :
    e.toJson.Plain (levels + 1) := by
  have address : (Json.ofNat e.address).Plain levels := .number host.address
  have operand : (Json.ofNat e.operand).Plain levels := .number host.operand
  apply Json.Plain.object
  · simp
  · simp [Mnemonic.plain_toJson, address, operand]

theorem ofJson?_toJson {e : Executed} (host : e.HostSized) : ofJson? e.toJson = some e := by
  have parts : e.toJson.parts? ["address", "mnemonic", "operand"] =
      some [some (Json.ofNat e.address), some e.mnemonic.toJson, some (Json.ofNat e.operand)] :=
    Json.parts?_ofMembers (show ["address", "mnemonic", "operand"].Nodup by decide)
  rw [ofJson?, parts, Option.bind_eq_bind, Option.bind_some]
  dsimp only
  simp only [Option.bind_eq_bind, Option.bind_some, Mnemonic.ofJson?_toJson,
    nat64?_ofNat host.address, nat64?_ofNat host.operand]
  rfl

end Executed

namespace Opcode

theorem plain_toJson {levels : Nat} (row : Opcode) : row.toJson.Plain (levels + 1) := by
  apply Json.Plain.object
  · simp
  · simp [Mnemonic.plain_toJson, Word.plain_toJson]

theorem ofJson?_toJson (row : Opcode) : ofJson? row.toJson = some row := by
  have parts : row.toJson.parts? ["pattern", "mnemonic"] =
      some [some row.pattern.toJson, some row.mnemonic.toJson] :=
    Json.parts?_ofMembers (show ["pattern", "mnemonic"].Nodup by decide)
  rw [ofJson?, parts, Option.bind_eq_bind, Option.bind_some]
  dsimp only
  simp only [Option.bind_eq_bind, Option.bind_some, Mnemonic.ofJson?_toJson, Word.ofJson?_toJson]
  rfl

end Opcode

namespace Description

/-- The numbers in a description are those of the host. -/
structure HostSized (d : Description) : Prop where
  wordLength : d.wordLength < UInt64.size
  wordCount : d.wordCount < UInt64.size
  addressStart : d.address.start < UInt64.size
  addressLength : d.address.length < UInt64.size
  opcodeStart : d.opcode.start < UInt64.size
  opcodeLength : d.opcode.length < UInt64.size
  typicalSpeed : d.typicalSpeed < UInt32.size

theorem plain_toJson {levels : Nat} {d : Description} (host : d.HostSized) :
    d.toJson.Plain (levels + 3) := by
  have speed : (Json.ofNat d.typicalSpeed).Plain (levels + 2) :=
    .number (Nat.lt_trans host.typicalSpeed (by decide))
  apply Json.Plain.object
  · simp
  · simp [Json.plain_map Mnemonic.plain_toJson, Json.plain_map Opcode.plain_toJson,
      Json.Plain.number host.wordLength, Json.Plain.number host.wordCount,
      Json.Plain.number host.addressStart, Json.Plain.number host.addressLength,
      Json.Plain.number host.opcodeStart, Json.Plain.number host.opcodeLength, speed]

theorem ofJson?_toJson {d : Description} (host : d.HostSized) : ofJson? d.toJson = some d := by
  have parts : d.toJson.parts? partNames =
      some [some (Json.ofNat d.wordLength), some (Json.ofNat d.wordCount),
        some (Json.ofNat d.address.start), some (Json.ofNat d.address.length),
        some (Json.ofNat d.opcode.start), some (Json.ofNat d.opcode.length),
        some (Json.ofNat d.typicalSpeed), some (.array (d.opcodes.map Opcode.toJson)),
        some (.array (d.withOperand.map Mnemonic.toJson)),
        some (.array (d.addressOperand.map Mnemonic.toJson))] :=
    Json.parts?_ofMembers (show partNames.Nodup by decide)
  have rows : (Json.array (d.opcodes.map Opcode.toJson)).items? Opcode.ofJson? = some d.opcodes :=
    Json.items?_map fun row _ => row.ofJson?_toJson
  have mnemonics (listed : List Mnemonic) :
      (Json.array (listed.map Mnemonic.toJson)).items? Mnemonic.ofJson? = some listed :=
    Json.items?_map fun m _ => m.ofJson?_toJson
  rw [ofJson?, parts, Option.bind_eq_bind, Option.bind_some]
  dsimp only
  rw [nat64?_ofNat host.wordLength, nat64?_ofNat host.wordCount, nat64?_ofNat host.addressStart,
    nat64?_ofNat host.addressLength, nat64?_ofNat host.opcodeStart,
    nat64?_ofNat host.opcodeLength, Json.orDefault?_some, nat32?_ofNat host.typicalSpeed, rows,
    Json.orDefault?_some, mnemonics, Json.orDefault?_some, mnemonics]
  rfl

end Description

namespace Model

/-- A model is small in all but the size of its store and its speed. -/
theorem hostSized (model : Model) (words : model.wordCount < UInt64.size)
    (speed : model.typicalSpeed < UInt32.size) : model.toDescription.HostSized := by
  have short : model.wordLength < UInt64.size :=
    Nat.lt_of_le_of_lt model.valid.wordLength_le (by decide)
  have address := model.valid.address_inside
  have opcode := model.valid.opcode_inside
  unfold BitField.stop at address opcode
  constructor <;> omega

theorem ofJson_toJson {model : Model} (host : model.toDescription.HostSized) :
    ofJson model.toJson = .ok model := by
  rw [ofJson, toJson, Description.ofJson?_toJson host]
  dsimp only
  rw [ofDescription_toDescription]
  rfl

end Model

namespace Store

theorem plain_toJson {levels : Nat} {store : Store} (host : store.wordLength < UInt64.size) :
    store.toJson.Plain (levels + 2) := by
  have wordLength : (Json.ofNat store.wordLength).Plain (levels + 1) := .number host
  apply Json.Plain.object
  · simp
  · simp [Json.plain_map Word.plain_toJson, wordLength]

theorem ofJson?_toJson {store : Store} (host : store.wordLength < UInt64.size) :
    ofJson? store.toJson = some store := by
  have parts : store.toJson.parts? ["word_length", "words"] =
      some [some (Json.ofNat store.wordLength), some (.array (store.words.map Word.toJson))] :=
    Json.parts?_ofMembers (show ["word_length", "words"].Nodup by decide)
  have words : (Json.array (store.words.map Word.toJson)).items? Word.ofJson? = some store.words :=
    Json.items?_map fun w _ => w.ofJson?_toJson
  rw [ofJson?, parts, Option.bind_eq_bind, Option.bind_some]
  dsimp only
  simp only [Option.bind_eq_bind, Option.bind_some, words, nat64?_ofNat host]
  rfl

end Store

namespace Registers

theorem plain_toJson {levels : Nat} (registers : Registers) :
    registers.toJson.Plain (levels + 1) := by
  apply Json.Plain.object
  · simp
  · simp [Word.plain_toJson]

theorem ofJson?_toJson (registers : Registers) : ofJson? registers.toJson = some registers := by
  have parts : registers.toJson.parts? ["ci", "a"] =
      some [some registers.control.toJson, some registers.accumulator.toJson] :=
    Json.parts?_ofMembers (show ["ci", "a"].Nodup by decide)
  rw [ofJson?, parts, Option.bind_eq_bind, Option.bind_some]
  dsimp only
  simp only [Option.bind_eq_bind, Option.bind_some, Word.ofJson?_toJson]
  rfl

end Registers

namespace Snapshot

/-- The numbers in a snapshot are those of the host. -/
structure HostSized (snapshot : Snapshot) : Prop where
  wordLength : snapshot.store.wordLength < UInt64.size
  cycles : snapshot.cycles < UInt64.size
  speed : snapshot.speed < UInt32.size
  last : ∀ e ∈ snapshot.last, e.HostSized

/-- The form of the last instruction, null if there is none. -/
def lastJson (last : Option Executed) : Json :=
  (last.map Executed.toJson).getD .null

theorem plain_lastJson {levels : Nat} {last : Option Executed}
    (host : ∀ e ∈ last, e.HostSized) : (lastJson last).Plain (levels + 1) := by
  cases last with
  | none => exact .null
  | some e => exact Executed.plain_toJson (host e rfl)

theorem plain_toJson {levels : Nat} {snapshot : Snapshot} (host : snapshot.HostSized) :
    snapshot.toJson.Plain (levels + 3) := by
  have last : (lastJson snapshot.last).Plain (levels + 2) := plain_lastJson host.last
  rw [lastJson] at last
  have speed : (Json.ofNat snapshot.speed).Plain (levels + 2) :=
    .number (Nat.lt_trans host.speed (by decide))
  apply Json.Plain.object
  · simp
  · simp [Registers.plain_toJson, Store.plain_toJson host.wordLength, RunState.plain_toJson,
      Json.Plain.number host.cycles, speed, last]

theorem nullable?_lastJson {last : Option Executed} (host : ∀ e ∈ last, e.HostSized) :
    (lastJson last).nullable? Executed.ofJson? = some last := by
  cases last with
  | none => rfl
  | some e =>
      have read := Executed.ofJson?_toJson (host e rfl)
      have form : lastJson (some e) = e.toJson := rfl
      rw [form, Json.nullable?, read]
      · rfl
      · rintro ⟨⟩

theorem ofJson?_toJson {snapshot : Snapshot} (host : snapshot.HostSized) :
    ofJson? snapshot.toJson = some snapshot := by
  have parts : snapshot.toJson.parts? partNames =
      some [some snapshot.registers.toJson, some snapshot.store.toJson,
        some (Json.ofNat snapshot.cycles), some snapshot.state.toJson,
        some (Json.ofNat snapshot.speed), some (lastJson snapshot.last)] :=
    Json.parts?_ofMembers (show partNames.Nodup by decide)
  have named : snapshot.toJson.isObject = true := rfl
  rw [ofJson?, parts, Option.bind_eq_bind, Option.bind_some]
  dsimp only
  simp only [Option.bind_eq_bind, Option.bind_some, Registers.ofJson?_toJson,
    Store.ofJson?_toJson host.wordLength, RunState.ofJson?_toJson, nat64?_ofNat host.cycles,
    nat32?_ofNat host.speed, lastOfJson?, nullable?_lastJson host.last]
  rfl

end Snapshot

/-! ## Every exchanged type -/

/-- The text that the library prints for the value is read back as the value. -/
def ReadsBack {α : Type} (library : JsonLibrary) (form : Json → Except ExchangeError α)
    (toJson : α → Json) (value : α) : Prop :=
  readExchangedBy library form (library.print (toJson value)) = .ok value

/-- All that is exchanged survives being printed and parsed by the library. -/
structure ExchangesFaithfully (library : JsonLibrary) : Prop where
  word (w : Word) : ReadsBack library Word.ofJson Word.toJson w
  instruction (i : Instruction) :
    i.operand < UInt64.size →
      ReadsBack library (shapeOnly Instruction.ofJson?) Instruction.toJson i
  executed (e : Executed) :
    e.HostSized → ReadsBack library (shapeOnly Executed.ofJson?) Executed.toJson e
  opcode (row : Opcode) : ReadsBack library (shapeOnly Opcode.ofJson?) Opcode.toJson row
  description (d : Description) :
    d.HostSized → ReadsBack library (shapeOnly Description.ofJson?) Description.toJson d
  store (store : Store) :
    store.wordLength < UInt64.size →
      ReadsBack library (shapeOnly Store.ofJson?) Store.toJson store
  registers (registers : Registers) :
    ReadsBack library (shapeOnly Registers.ofJson?) Registers.toJson registers
  snapshot (snapshot : Snapshot) :
    snapshot.HostSized → ReadsBack library (shapeOnly Snapshot.ofJson?) Snapshot.toJson snapshot
  model (model : Model) :
    model.wordCount < UInt64.size → model.typicalSpeed < UInt32.size →
      ReadsBack library Model.ofJson Model.toJson model
  /-- The description that is written for a model passes the check and makes it again. -/
  rebuilt (model : Model) : Model.ofDescription model.toDescription = .ok model
  /-- The order and the repeats of listed mnemonics do not show. -/
  listing (first second : Description) (firstModel secondModel : Model) :
    Description.SameUpToListing first second → Model.ofDescription first = .ok firstModel →
      Model.ofDescription second = .ok secondModel →
      library.print firstModel.toJson = library.print secondModel.toJson

theorem sameForm_of_sameUpToListing {first second : Description} {firstModel secondModel : Model}
    (same : Description.SameUpToListing first second)
    (firstMade : Model.ofDescription first = .ok firstModel)
    (secondMade : Model.ofDescription second = .ok secondModel) :
    firstModel.toJson = secondModel.toJson := by
  have sameDescription : firstModel.toDescription = secondModel.toDescription := by
    rw [(Model.ofDescription_eq_ok_iff.mp firstMade).2,
      (Model.ofDescription_eq_ok_iff.mp secondMade).2, same.normal_eq]
  rw [Model.toJson, Model.toJson, sameDescription]

theorem exchanges_faithfully {library : JsonLibrary} (faithful : library.Faithful) :
    ExchangesFaithfully library where
  word w := readExchangedBy_print faithful w.plain_toJson w.ofJson_toJson
  instruction _ host := readExchangedBy_shapeOnly faithful (Instruction.plain_toJson host)
    (Instruction.ofJson?_toJson host)
  executed _ host :=
    readExchangedBy_shapeOnly faithful (Executed.plain_toJson host) (Executed.ofJson?_toJson host)
  opcode row := readExchangedBy_shapeOnly faithful row.plain_toJson row.ofJson?_toJson
  description _ host := readExchangedBy_shapeOnly faithful (Description.plain_toJson host)
    (Description.ofJson?_toJson host)
  store _ host :=
    readExchangedBy_shapeOnly faithful (Store.plain_toJson host) (Store.ofJson?_toJson host)
  registers registers :=
    readExchangedBy_shapeOnly faithful registers.plain_toJson registers.ofJson?_toJson
  snapshot _ host :=
    readExchangedBy_shapeOnly faithful (Snapshot.plain_toJson host) (Snapshot.ofJson?_toJson host)
  model model words speed := by
    have host := model.hostSized words speed
    exact readExchangedBy_print faithful (Description.plain_toJson host)
      (Model.ofJson_toJson host)
  rebuilt := Model.ofDescription_toDescription
  listing _ _ _ _ same firstMade secondMade :=
    congrArg library.print (sameForm_of_sameUpToListing same firstMade secondMade)

/-- The largest numbers of the host, and words that have no bits. -/
theorem exchanges_faithfully_largest :
    let snapshot : Snapshot :=
      ⟨⟨⟨[]⟩, ⟨[true]⟩⟩, ⟨2 ^ 64 - 1, [⟨[]⟩]⟩, 2 ^ 64 - 1, .halted, 2 ^ 32 - 1,
        some ⟨2 ^ 64 - 1, .num, 2 ^ 64 - 1⟩⟩
    JsonLibrary.builtIn.Faithful ∧ snapshot.HostSized ∧
      ReadsBack .builtIn (shapeOnly Snapshot.ofJson?) Snapshot.toJson snapshot := by
  intro snapshot
  have host : snapshot.HostSized := by
    refine ⟨by decide, by decide, by decide, fun e isLast => ?_⟩
    cases isLast
    exact ⟨by decide, by decide⟩
  exact ⟨JsonLibrary.faithful_builtIn, host,
    (exchanges_faithfully JsonLibrary.faithful_builtIn).snapshot snapshot host⟩

end SmallScale
