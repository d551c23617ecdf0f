import DolphinRe.StopReplies
import DolphinRe.HexNumerals
import DolphinRe.Dictionaries

/-!
# The fields of a stop reply

A reply is printed from a signal and a list of fields, each a register, a watch
annotation or a named text. Reading it back gives the signal, the last value of
every register, the last annotation and the last value of every name.
-/

namespace DolphinRe.StopReplyFields

open PythonText GdbPackets PacketNumerals HexNumerals StopReplies Dictionaries

section Names

/-- The table and the fallback name of a register never meet. -/
theorem small_names_distinct : ∀ a < 70, ∀ b < 70, regName (a : ℕ) = regName (b : ℕ) → a = b := by
  decide +kernel

/-- The registers of the table have names of their own. -/
theorem small_name_in_table : ∀ a < 70, ¬"reg_0x".toList <+: regName (a : ℕ) := by
  decide +kernel

/-- The others are named by their numbers. -/
theorem regName_large {n : ℕ} (h : 70 ≤ n) : regName n = "reg_0x".toList ++ formatHex n := by
  unfold regName
  rw [if_neg (by omega), if_neg (by omega), if_neg (by omega), if_neg (by omega), if_neg (by omega),
    if_neg (by omega), if_neg (by omega), if_neg (by omega), if_neg (by omega)]

/-- Different numbers are written differently. -/
theorem formatHex_injective {a b : ℕ} (h : formatHex a = formatHex b) : a = b := by
  have ha := readNumeral_formatHex a
  have hb := readNumeral_formatHex b
  rw [if_neg (by omega)] at ha hb
  rw [h, hb] at ha
  have habs := Option.some.inj ha
  omega

/-- Distinct register numbers have distinct names. -/
theorem regName_injective (a b : ℕ) (h : regName a = regName b) : a = b := by
  by_cases ha : a < 70
  · by_cases hb : b < 70
    · exact small_names_distinct a ha b hb h
    · rw [regName_large (n := b) (by omega)] at h
      exact absurd ⟨_, h.symm⟩ (small_name_in_table a ha)
  · rw [regName_large (n := a) (by omega)] at h
    by_cases hb : b < 70
    · exact absurd ⟨_, h⟩ (small_name_in_table b hb)
    · rw [regName_large (n := b) (by omega)] at h
      exact formatHex_injective (List.append_cancel_left h)

end Names

section Fields

/-- The annotations a stub may give. -/
inductive Watch where
  | watch
  | rwatch
  | awatch
  deriving DecidableEq, Repr

/-- The key of an annotation. -/
def Watch.text : Watch → Str
  | .watch => "watch".toList
  | .rwatch => "rwatch".toList
  | .awatch => "awatch".toList

/-- A name that is not a number and not the key of an annotation. -/
structure IsName (name : Str) : Prop where
  /-- It is not a hexadecimal number. -/
  no_number : parseHexInt name = none
  /-- It does not announce a watchpoint. -/
  no_watch : ∀ kind : Watch, name ≠ kind.text
  /-- It ends before the colon. -/
  no_colon : ':' ∉ name
  /-- It ends before the semicolon. -/
  no_semicolon : ';' ∉ name

/-- One field of a stop reply. -/
inductive Field where
  /-- A register and its value, both shown in base sixteen. -/
  | register (regnum value : ℕ) (k v : Str) (hk : Numeral 16 regnum k) (hv : Numeral 16 value v)
  /-- An annotation with its address. -/
  | watch (kind : Watch) (addr : ℕ) (v : Str) (hv : Numeral 16 addr v)
  /-- Any other field. -/
  | named (name value : Str) (hname : IsName name) (hvalue : ';' ∉ value)

/-- The key of a field. -/
def Field.key : Field → Str
  | .register _ _ k _ _ _ => k
  | .watch kind _ _ _ => kind.text
  | .named name _ _ _ => name

/-- The text behind the colon. -/
def Field.value : Field → Str
  | .register _ _ _ v _ _ => v
  | .watch _ _ v _ => v
  | .named _ value _ _ => value

/-- `<k>:<v>`. -/
def Field.text (field : Field) : Str := field.key ++ ':' :: field.value

/-- `T<sig><k>:<v>;<k>:<v>;...`, with or without the final semicolon. -/
def render (sig : Str) (fields : List Field) (final : Bool) : Str :=
  'T' :: (sig ++ ([';'].intercalate (fields.map Field.text) ++ if final then [';'] else []))

/-- The registers in order. -/
def registers (fields : List Field) : List (ℕ × ℕ) :=
  fields.filterMap fun field => match field with
    | .register regnum value _ _ _ _ => some (regnum, value)
    | _ => none

/-- The annotations in order. -/
def watches (fields : List Field) : List (Watch × ℕ) :=
  fields.filterMap fun field => match field with
    | .watch kind addr _ _ => some (kind, addr)
    | _ => none

/-- The named texts in order. -/
def named (fields : List Field) : List (Str × Str) :=
  fields.filterMap fun field => match field with
    | .named name value _ _ => some (name, value)
    | _ => none

/-- The last value of a key. -/
def lastValue {κ α : Type} [DecidableEq κ] (key : κ) (pairs : List (κ × α)) : Option α :=
  valueOf key pairs.reverse

/-- A parsed reply says what the fields say, and nothing else. -/
structure Reports (parsed : StopReply) (sig : UInt8) (fields : List Field) : Prop where
  /-- The signal. -/
  signal : parsed.signal = some (sig.toNat : ℤ)
  /-- The last value of each numbered register. -/
  registers : ∀ key value, dictGet key parsed.registers = some value ↔
    ∃ (regnum n : ℕ), key = regName regnum ∧ lastValue regnum (registers fields) = some n ∧
      value = (n : ℤ)
  /-- The kind of the last watchpoint. -/
  watchKind : parsed.watchKind = (watches fields).getLast?.map fun watch => watch.1.text
  /-- Its address. -/
  watchAddr : parsed.watchAddr = (watches fields).getLast?.map fun watch => (watch.2 : ℤ)
  /-- The last value of each other name. -/
  extra : ∀ name, dictGet name parsed.extra = lastValue name (named fields)

end Fields

section Reading

/-- What one field adds to a parsed reply. -/
def Field.record (out : StopReply) : Field → StopReply
  | .register regnum value _ _ _ _ =>
    {out with registers := assign (regName regnum) (value : ℤ) out.registers}
  | .watch kind addr _ _ => {out with watchKind := some kind.text, watchAddr := some (addr : ℤ)}
  | .named name value _ _ => {out with extra := assign name value out.extra}

/-- The key of an annotation has no separator. -/
theorem Watch.plain (kind : Watch) : ':' ∉ kind.text ∧ ';' ∉ kind.text := by
  cases kind with
  | watch => decide
  | rwatch => decide
  | awatch => decide

/-- A key ends before the colon. -/
theorem colon_not_mem_key (field : Field) : ':' ∉ field.key := by
  cases field with
  | register regnum value k v hk hv => exact hk.not_mem (Nat.le_refl 16) (by decide)
  | watch kind addr v hv => exact kind.plain.1
  | named name value hname hvalue => exact hname.no_colon

/-- A field ends before the semicolon. -/
theorem semicolon_not_mem_text (field : Field) : ';' ∉ field.text := by
  have hkey : ';' ∉ field.key := by
    cases field with
    | register regnum value k v hk hv => exact hk.not_mem (Nat.le_refl 16) (by decide)
    | watch kind addr v hv => exact kind.plain.2
    | named name value hname hvalue => exact hname.no_semicolon
  have hvalue : ';' ∉ field.value := by
    cases field with
    | register regnum value k v hk hv => exact hv.not_mem (Nat.le_refl 16) (by decide)
    | watch kind addr v hv => exact hv.not_mem (Nat.le_refl 16) (by decide)
    | named name value hname hvalue => exact hvalue
  unfold Field.text
  rw [List.mem_append, List.mem_cons]
  rintro (h | h | h)
  · exact hkey h
  · exact absurd h (by decide)
  · exact hvalue h

/-- The first colon ends the key. -/
theorem split_text (field : Field) : field.text.takeWhile (· ≠ ':') = field.key ∧
    (field.text.dropWhile (· ≠ ':')).drop 1 = field.value := by
  have hall : ∀ c ∈ field.key, decide (c ≠ ':') = true := by
    intro c hc
    rw [decide_eq_true_eq]
    rintro rfl
    exact colon_not_mem_key field hc
  unfold Field.text
  rw [List.takeWhile_append_of_pos hall, List.dropWhile_append_of_pos hall]
  simp

/-- The key of an annotation is no number. -/
theorem parseHexInt_watch (kind : Watch) : parseHexInt kind.text = none := by
  cases kind with
  | watch => decide
  | rwatch => decide
  | awatch => decide

/-- One field is read as what it stands for. -/
theorem readField_text (out : StopReply) (field : Field) :
    readField out field.text = field.record out := by
  obtain ⟨hkey, hvalue⟩ := split_text field
  have hcolon : ':' ∈ field.text := by simp [Field.text]
  unfold readField
  rw [if_pos hcolon, hkey, hvalue]
  cases field with
  | register regnum value k v hk hv =>
    simp only [Field.key, Field.value, parseHexInt_numeral hk, parseHexInt_numeral hv]
    rfl
  | watch kind addr v hv =>
    have hwatch : kind.text = "watch".toList ∨ kind.text = "rwatch".toList ∨
        kind.text = "awatch".toList := by
      cases kind with
      | watch => exact Or.inl rfl
      | rwatch => exact Or.inr (Or.inl rfl)
      | awatch => exact Or.inr (Or.inr rfl)
    simp only [Field.key, Field.value, parseHexInt_watch, parseHexInt_numeral hv, if_pos hwatch]
    rfl
  | named name value hname _ =>
    have hwatch : ¬(name = "watch".toList ∨ name = "rwatch".toList ∨ name = "awatch".toList) := by
      rintro (h | h | h)
      · exact hname.no_watch .watch h
      · exact hname.no_watch .rwatch h
      · exact hname.no_watch .awatch h
    simp only [Field.key, Field.value, hname.no_number]
    exact (if_neg hwatch).trans rfl

/-- All fields, read in turn. -/
def recordAll (fields : List Field) (out : StopReply) : StopReply :=
  fields.foldl (fun out field => field.record out) out

/-- The fields are read as they are recorded. -/
theorem foldl_readField (fields : List Field) (out : StopReply) :
    (fields.map Field.text).foldl readField out = recordAll fields out := by
  unfold recordAll
  rw [List.foldl_map]
  congr 1
  funext out field
  exact readField_text out field

/-- Fields leave the signal alone. -/
theorem recordAll_signal (fields : List Field) (out : StopReply) :
    (recordAll fields out).signal = out.signal := by
  induction fields generalizing out with
  | nil => rfl
  | cons field fields ih =>
    refine (ih (field.record out)).trans ?_
    cases field with
    | register => rfl
    | watch => rfl
    | named => rfl

/-- The registers are collected in order. -/
theorem recordAll_registers (fields : List Field) (out : StopReply) :
    (recordAll fields out).registers =
      collect ((registers fields).map fun pair => (regName pair.1, (pair.2 : ℤ))) out.registers := by
  induction fields generalizing out with
  | nil => rfl
  | cons field fields ih =>
    refine (ih (field.record out)).trans ?_
    cases field with
    | register => rfl
    | watch => rfl
    | named => rfl

/-- So are the other names. -/
theorem recordAll_extra (fields : List Field) (out : StopReply) :
    (recordAll fields out).extra = collect (named fields) out.extra := by
  induction fields generalizing out with
  | nil => rfl
  | cons field fields ih =>
    refine (ih (field.record out)).trans ?_
    cases field with
    | register => rfl
    | watch => rfl
    | named => rfl

/-- The last annotation counts. -/
theorem recordAll_watch (fields : List Field) (out : StopReply) :
    (recordAll fields out).watchKind =
        ((watches fields).getLast?.map fun watch => watch.1.text).or out.watchKind ∧
      (recordAll fields out).watchAddr =
        ((watches fields).getLast?.map fun watch => (watch.2 : ℤ)).or out.watchAddr := by
  induction fields generalizing out with
  | nil => exact ⟨rfl, rfl⟩
  | cons field fields ih =>
    obtain ⟨hkind, haddr⟩ := ih (field.record out)
    have hrest : recordAll (field :: fields) out = recordAll fields (field.record out) := rfl
    rw [hrest, hkind, haddr]
    cases field with
    | register => exact ⟨rfl, rfl⟩
    | named => exact ⟨rfl, rfl⟩
    | watch kind addr v hv =>
      have hcons : watches (.watch kind addr v hv :: fields) = (kind, addr) :: watches fields := rfl
      rw [hcons, List.getLast?_cons]
      cases (watches fields).getLast? with
      | none => exact ⟨rfl, rfl⟩
      | some last => exact ⟨rfl, rfl⟩

end Reading

section RoundTrip

variable {sig : UInt8} {sigText : Str}

/-- The two digits of a signal are read back. -/
theorem signal_digits (h : Renders [sig] sigText) :
    ∃ high low, sigText = [high, low] ∧ parseHexInt sigText = some (sig.toNat : ℤ) := by
  cases h with
  | @cons b high low blob text hhigh hlow hrest =>
    cases hrest with
    | nil =>
      have hsig : sig.toNat < 256 := UInt8.toNat_lt sig
      have hvalue : sig.toNat / 16 * 16 + sig.toNat % 16 = sig.toNat := by omega
      refine ⟨high, low, rfl, parseHexInt_numeral ⟨[sig.toNat / 16, sig.toNat % 16], by simp, ?_,
        .cons hhigh (.cons hlow .nil), by simpa using hvalue⟩⟩
      intro d hd
      rcases List.mem_pair.mp hd with rfl | rfl
      · omega
      · omega

/-- The fields end in something else than a semicolon. -/
theorem getLast_fields (field : Field) (fields : List Field) :
    ∃ c, ([';'].intercalate ((field :: fields).map Field.text)).getLast? = some c ∧ c ≠ ';' := by
  induction fields generalizing field with
  | nil =>
    have hne : field.text ≠ [] := by simp [Field.text]
    rw [List.map_singleton, List.intercalate_singleton]
    refine ⟨field.text.getLast hne, List.getLast?_eq_some_getLast hne, fun heq => ?_⟩
    exact semicolon_not_mem_text field (heq ▸ List.getLast_mem hne)
  | cons next fields ih =>
    obtain ⟨c, hc, hne⟩ := ih next
    refine ⟨c, ?_, hne⟩
    rw [List.map_cons, List.map_cons, List.intercalate_cons_cons, ← List.map_cons,
      List.getLast?_append, hc]
    rfl

/-- No field ends with a semicolon. -/
theorem rdropWhile_fields (field : Field) (fields : List Field) :
    ([';'].intercalate ((field :: fields).map Field.text)).rdropWhile (· = ';') =
      [';'].intercalate ((field :: fields).map Field.text) := by
  obtain ⟨c, hc, hne⟩ := getLast_fields field fields
  rw [List.rdropWhile_eq_self_iff]
  intro hl hlast
  rw [List.getLast?_eq_some_getLast hl] at hc
  rw [Option.some.inj hc, decide_eq_true_eq] at hlast
  exact hne hlast

/-- The body is stripped back to the fields, with or without the final semicolon. -/
theorem rdropWhile_body (fields : List Field) (final : Bool) :
    ([';'].intercalate (fields.map Field.text) ++ if final then [';'] else []).rdropWhile (· = ';') =
      [';'].intercalate (fields.map Field.text) := by
  have hfields : ([';'].intercalate (fields.map Field.text)).rdropWhile (· = ';') =
      [';'].intercalate (fields.map Field.text) := by
    cases fields with
    | nil => rfl
    | cons field fields => exact rdropWhile_fields field fields
  cases final with
  | false => rw [if_neg Bool.false_ne_true, List.append_nil, hfields]
  | true => rw [if_pos rfl, List.rdropWhile_concat_pos _ _ ';' (decide_eq_true rfl), hfields]

/-- A printed reply is parsed field by field. -/
theorem parseStopReply_render (hsig : Renders [sig] sigText) (fields : List Field) (final : Bool) :
    parseStopReply (render sigText fields final) = recordAll fields
      {raw := render sigText fields final, signal := some (sig.toNat : ℤ)} := by
  obtain ⟨high, low, rfl, hsignal⟩ := signal_digits hsig
  generalize hraw : render [high, low] fields final = raw
  have hreply : raw = 'T' :: high :: low :: ([';'].intercalate (fields.map Field.text) ++
      if final then [';'] else []) := hraw.symm
  unfold parseStopReply
  dsimp only
  rw [hreply]
  simp only [List.take_succ_cons, List.take_zero, List.drop_succ_cons, List.drop_zero, hsignal,
    rdropWhile_body]
  cases fields with
  | nil => rfl
  | cons field fields =>
    have hsplit : ([';'].intercalate ((field :: fields).map Field.text)).splitOn ';' =
        (field :: fields).map Field.text := by
      refine List.splitOn_intercalate ';' (fun text htext => ?_) (by simp)
      obtain ⟨shown, -, rfl⟩ := List.mem_map.mp htext
      exact semicolon_not_mem_text shown
    obtain ⟨c, hlast, -⟩ := getLast_fields field fields
    rw [if_pos (Or.inr (Or.inl trivial)), if_pos trivial, ← hreply]
    generalize [';'].intercalate ((field :: fields).map Field.text) = body at hsplit hlast ⊢
    cases body with
    | nil => exact absurd hlast (by simp)
    | cons first rest =>
      change (List.splitOn ';' (first :: rest)).foldl readField _ = _
      rw [hsplit, foldl_readField]

/-- A register's name carries the register's last value. -/
theorem valueOf_registers_iff (pairs : List (ℕ × ℕ)) (key : Str) (value : ℤ) :
    valueOf key (pairs.map fun pair => (regName pair.1, (pair.2 : ℤ))) = some value ↔
      ∃ (regnum n : ℕ), key = regName regnum ∧ valueOf regnum pairs = some n ∧ value = (n : ℤ) := by
  induction pairs with
  | nil => simp [valueOf]
  | cons pair pairs ih =>
    rw [List.map_cons, valueOf_cons]
    by_cases hkey : regName pair.1 = key
    · rw [if_pos hkey]
      constructor
      · intro hvalue
        refine ⟨pair.1, pair.2, hkey.symm, ?_, (Option.some.inj hvalue).symm⟩
        rw [valueOf_cons, if_pos rfl]
      · rintro ⟨regnum, n, rfl, hget, rfl⟩
        rw [valueOf_cons, if_pos (regName_injective _ _ hkey)] at hget
        rw [Option.some.inj hget]
    · rw [if_neg hkey, ih]
      have hne : ∀ regnum : ℕ, key = regName regnum → ¬pair.1 = regnum := by
        rintro regnum hname rfl
        exact hkey hname.symm
      constructor
      · rintro ⟨regnum, n, hname, hget, hvalue⟩
        refine ⟨regnum, n, hname, ?_, hvalue⟩
        rw [valueOf_cons, if_neg (hne regnum hname), hget]
      · rintro ⟨regnum, n, hname, hget, hvalue⟩
        rw [valueOf_cons, if_neg (hne regnum hname)] at hget
        exact ⟨regnum, n, hname, hget, hvalue⟩

/-- Every reply printed from fields is read back as these fields. -/
theorem parse_render (hsig : Renders [sig] sigText) (fields : List Field) (final : Bool) :
    Reports (parseStopReply (render sigText fields final)) sig fields := by
  rw [parseStopReply_render hsig]
  obtain ⟨hkind, haddr⟩ := recordAll_watch fields
    {raw := render sigText fields final, signal := some (sig.toNat : ℤ)}
  refine ⟨?_, fun key value => ?_, ?_, ?_, fun name => ?_⟩
  · rw [recordAll_signal]
  · rw [recordAll_registers]
    change valueOf key (collect _ []) = some value ↔ _
    rw [valueOf_collect, ← List.map_reverse]
    have hnone : valueOf key ([] : List (Str × ℤ)) = none := rfl
    rw [hnone, Option.or_none]
    exact valueOf_registers_iff _ key value
  · rw [hkind, Option.or_none]
  · rw [haddr, Option.or_none]
  · rw [recordAll_extra]
    change valueOf name (collect _ []) = _
    have hnone : valueOf name ([] : List (Str × Str)) = none := rfl
    rw [valueOf_collect, hnone, Option.or_none]
    rfl

/-- The program counter in mixed case, and a named text with a colon in it. -/
def sampleFields : List Field :=
  [.register 0x40 0xAB0C "40".toList "aB0C".toList
      ⟨[4, 0], by simp, by simp, .cons (.inl rfl) (.cons (.inl rfl) .nil), rfl⟩
      ⟨[10, 11, 0, 12], by simp, by simp, .cons (.inl rfl) (.cons (.inr rfl) (.cons (.inl rfl)
        (.cons (.inr rfl) .nil))), rfl⟩,
    .named "library".toList "a:b".toList
      ⟨by decide, fun kind => by cases kind <;> decide, by decide, by decide⟩ (by decide)]

/-- A reply with a register and a name. -/
theorem parse_render_sample :
    render "05".toList sampleFields true = "T0540:aB0C;library:a:b;".toList ∧
      Reports (parseStopReply (render "05".toList sampleFields true)) 5 sampleFields := by
  have hsignal : Renders [5] "05".toList := .cons (.inl rfl) (.inl rfl) .nil
  exact ⟨rfl, parse_render hsignal sampleFields true⟩

end RoundTrip

end DolphinRe.StopReplyFields
