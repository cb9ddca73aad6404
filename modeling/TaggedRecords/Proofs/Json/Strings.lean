import TaggedRecords.Json.Quoted
import TaggedRecords.Proofs.Json.Taking

/-!
# JSON — strings

**A string is read as the text that it spells** (`takes_isString`), whatever stands behind
it, each spelled character being one step of the loop over a string (`takes_stringStep`).
What is written spells the text it was written for (`isString_encode`).
-/

namespace TaggedRecords.Json

namespace Quoted

/-! ### Spellings -/

/-- Every escape letter is read as the character that it stands for. -/
theorem ofLetter?_of_mem {l c : Char} (h : (l, c) ∈ escapes) : ofLetter? l = some c := by
  have hall : ∀ e ∈ escapes, ofLetter? e.1 = some e.2 := by decide
  exact hall _ h

/-- What is written as an escape letter is what the letter stands for. -/
theorem mem_escapes_of_letterOf? {c l : Char} (h : letterOf? c = some l) : (l, c) ∈ escapes := by
  unfold letterOf? at h
  split at h <;> simp only [Option.some.injEq, reduceCtorEq] at h <;> subst h <;> decide

theorem ne_of_letterOf?_none {c : Char} (h : letterOf? c = none) : c ≠ '"' ∧ c ≠ '\\' := by
  constructor <;> rintro rfl <;> simp [letterOf?] at h

/-- A digit of base sixteen is read as its value. -/
theorem hexValue?_of_hexDigit {c : Char} {n : Nat} (h : HexDigit c n) : hexValue? c = some n := by
  have hlower : ∀ n < 16, "0123456789abcdef".toList[n]?.bind hexValue? = some n := by decide
  have hupper : ∀ n < 16, "0123456789ABCDEF".toList[n]?.bind hexValue? = some n := by decide
  rcases h with h | h
  · have hvalue := hlower n (List.getElem?_eq_some_iff.mp h).1
    rwa [h] at hvalue
  · have hvalue := hupper n (List.getElem?_eq_some_iff.mp h).1
    rwa [h] at hvalue

theorem hexDigit_hexDigit : ∀ n < 16, HexDigit (hexDigit n) n := by
  have hlower : ∀ n < 16, "0123456789abcdef".toList[n]? = some (hexDigit n) := by decide
  exact fun n hn => .inl (hlower n hn)

/-- The four digits of the code of a character below `U+0020`. -/
theorem hexCode_hexDigit {n : Nat} (h : n < 32) :
    HexCode ['0', '0', hexDigit (n / 16), hexDigit (n % 16)] n := by
  have hzero : HexDigit '0' 0 := .inl rfl
  have hcode := HexCode.mk hzero hzero (hexDigit_hexDigit (n / 16) (by omega))
    (hexDigit_hexDigit (n % 16) (by omega))
  rwa [show ((0 * 16 + 0) * 16 + n / 16) * 16 + n % 16 = n by omega] at hcode

/-- A written character is spelled as itself, by an escape letter or by its code. -/
theorem spellsChar_encodeChar (c : Char) : SpellsChar (encodeChar c) c := by
  rw [encodeChar]
  split
  · rename_i l hl
    exact .letter (mem_escapes_of_letterOf? hl)
  · rename_i hn
    obtain ⟨hq, hb⟩ := ne_of_letterOf?_none hn
    split
    · rename_i hc
      have hcode := SpellsChar.code (hexCode_hexDigit hc) (by omega)
      rwa [Char.ofNat_toNat] at hcode
    · rename_i hc
      exact .plain hq hb hc

theorem spells_encode : ∀ text : List Char, Spells (text.flatMap encodeChar) text
  | [] => .nil
  | c :: text => .cons (spellsChar_encodeChar c) (spells_encode text)

/-- What is written for a text spells it. -/
theorem isString_encode (s : String) : IsString (encode s.toList) s :=
  ⟨_, rfl, spells_encode s.toList⟩

end Quoted

namespace Reader

open Quoted

theorem hasBytes_of_le_length : ∀ (text : List Char) (n : Nat), n ≤ text.length →
    Source.hasBytes n text = true
  | _, 0, _ => by simp [Source.hasBytes]
  | [], _ + 1, h => absurd h (Nat.not_succ_le_zero _)
  | c :: text, n + 1, h => by
      have hc := c.utf8Size_pos
      rw [List.length_cons] at h
      rw [Source.hasBytes]
      exact hasBytes_of_le_length text _ (by omega)

theorem takes_fourHex {digits : List Char} {n : Nat} (h : HexCode digits n) :
    Takes anything fourHex digits n := by
  obtain ⟨ha, hb, hc, hd⟩ := h
  rename_i a b c d i j k l
  intro tail p _
  have hbytes : Source.hasBytes 4 (a :: b :: c :: d :: tail) = true :=
    hasBytes_of_le_length _ _ (by simp)
  have hcode : fourHex? a b c d = some (((i * 16 + j) * 16 + k) * 16 + l) := by
    rw [fourHex?, hexValue?_of_hexDigit ha, hexValue?_of_hexDigit hb, hexValue?_of_hexDigit hc,
      hexValue?_of_hexDigit hd]
    rfl
  show StateT.run (if !Source.hasBytes 4 (a :: b :: c :: d :: tail) then _ else _) _ = _
  rw [hbytes]
  simp only [List.cons_append, List.nil_append, hcode]
  rfl

/-- A character that is escaped by its code. -/
theorem takes_codeEscape {digits : List Char} {n : Nat} (h : HexCode digits n)
    (hn : n < 0xD800 ∨ 0xDFFF < n) : Takes anything codeEscape digits (.ofNat n) := by
  have hl : isLow n = false := by simp [isLow]; omega
  have hh : isHigh n = false := by simp [isHigh]; omega
  exact (takes_fourHex h).give (by rw [hl, hh]; rfl)

/-- A character that is escaped by the codes of two surrogate halves. -/
theorem takes_codeEscape_pair {digits digits' : List Char} {high low : Nat}
    (h : HexCode digits high) (hh : 0xD800 ≤ high ∧ high ≤ 0xDBFF) (h' : HexCode digits' low)
    (hl : 0xDC00 ≤ low ∧ low ≤ 0xDFFF) :
    Takes anything codeEscape (digits ++ '\\' :: 'u' :: digits')
      (.ofNat ((high - 0xD800) * 0x400 + (low - 0xDC00) + 0x10000)) := by
  have hhigh : isHigh high = true := by simp [isHigh, hh]
  have hnot : isLow high = false := by simp [isLow]; omega
  have hlow : isLow low = true := by simp [isLow, hl]
  have ht : Takes anything (do
      let low ← fourHex
      if isLow low then return Char.ofNat ((high - 0xD800) * 0x400 + (low - 0xDC00) + 0x10000)
      else fail .loneSurrogate : Reader Char) digits'
      (.ofNat ((high - 0xD800) * 0x400 + (low - 0xDC00) + 0x10000)) :=
    (takes_fourHex h').give (by rw [hlow]; rfl)
  intro tail p htail
  have hfirst := takes_fourHex h ('\\' :: 'u' :: (digits' ++ tail)) p trivial
  rw [List.append_assoc]
  refine (run_bind_ok hfirst).trans ?_
  rw [hnot, hhigh, Position.after_append]
  exact ht tail _ htail

/-- The mark of an escape by code is no escape letter. -/
theorem ne_of_ofLetter? {l c : Char} (h : ofLetter? l = some c) : l ≠ 'u' := by
  rintro rfl
  contradiction

theorem takes_escape_letter {c l : Char} (h : (l, c) ∈ escapes) :
    Takes anything escape [l] c := by
  have hc := ofLetter?_of_mem h
  have hu := ne_of_ofLetter? hc
  intro tail p _
  rw [escape, List.singleton_append, run_bind_ok (run_peek _)]
  simp only [Source.next?, List.head?_cons, hc]
  rfl

/-! ### Strings -/

theorem takes_stringStep_escape {text : List Char} {c : Char} (done : List Char)
    (h : Takes anything escape text c) :
    Takes anything (stringStep done) ('\\' :: text) (.inl (c :: done)) := by
  have hr : ∀ rest p, StateT.run (stringStep done) ⟨'\\' :: rest, p⟩ =
      StateT.run (do return .inl ((← escape) :: done)) ⟨rest, p.advance '\\'⟩ :=
    fun _ _ => rfl
  exact .afterFirst hr (h.give rfl)

/-- One spelled character is one step of reading a string. -/
theorem takes_stringStep {piece : List Char} {c : Char} (h : SpellsChar piece c)
    (done : List Char) : Takes anything (stringStep done) piece (.inl (c :: done)) := by
  cases h with
  | plain hq hb hc =>
      intro tail p _
      rw [stringStep, List.singleton_append, run_bind_ok (run_peek _)]
      simp only [Source.next?, List.head?_cons]
      rw [if_neg hc]
      rfl
  | letter h => exact takes_stringStep_escape done (takes_escape_letter h)
  | code h hn =>
      exact takes_stringStep_escape done
        (.afterFirst (fun _ _ => rfl) (takes_codeEscape h hn))
  | pair h hh h' hl =>
      exact takes_stringStep_escape done
        (.afterFirst (fun _ _ => rfl) (takes_codeEscape_pair h hh h' hl))

theorem pieces_string {inner s : List Char} (h : Spells inner s) : ∀ done,
    Pieces anything stringStep done (inner ++ ['"']) (done.reverse ++ s) := by
  induction h with
  | nil =>
      intro done
      rw [List.append_nil]
      exact .last (.afterFirst (fun _ _ => rfl) (.pure _))
  | @cons piece text s c h _ ih =>
      intro done
      have ht := ih (c :: done)
      rw [List.reverse_cons, List.append_assoc, List.singleton_append] at ht
      rw [List.append_assoc]
      exact .more (takes_stringStep h done) h.ne_nil (fun _ _ => trivial) ht

/-- **A string is read as what it spells.** -/
theorem takes_isString {text : List Char} {s : String} (h : IsString text s) :
    Takes anything quoted text s := by
  obtain ⟨inner, rfl, hs⟩ := h
  have ht := (pieces_string hs []).takes
  rw [List.reverse_nil, List.nil_append] at ht
  have hr : ∀ rest p, StateT.run quoted ⟨'"' :: rest, p⟩ =
      StateT.run restOfString ⟨rest, p.advance '"'⟩ := fun _ _ => rfl
  exact .afterFirst hr (ht.give (congrArg pure String.ofList_toList))

/-- **A quoted text is read back.** -/
theorem takes_quoted (s : String) : Takes anything quoted (Quoted.encode s.toList) s :=
  takes_isString (isString_encode s)

end Reader

end TaggedRecords.Json
