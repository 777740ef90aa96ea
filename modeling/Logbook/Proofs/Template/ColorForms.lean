import Logbook.Proofs.Template.Modifiers

/-!
# Written colors

A color is written by the hexadecimal digits of its channels or by their decimal
numbers, with or without parentheses and a fourth channel: `Writes`. All of these are
read as the nearest entry of the palette (`Color.read?_writes`), and a number alone as
the entry of that number. `compile_writes` says so of whole modifiers.
-/

namespace Logbook

namespace Color

/-! ### Numbers between commas -/

/-- Decimal digits of a number, with blanks around them. -/
def IsNumber (n : Nat) (cs : List Char) : Prop :=
  ∃ front digits back, cs = front ++ digits ++ back ∧ Text.isAllBlank front = true ∧
    Text.isAllBlank back = true ∧ digits ≠ [] ∧ digits.all Char.isDigit = true ∧
    Text.digitsValue digits = n

/-- One or more numbers of octets with commas between them. -/
inductive Numbers : List UInt8 → List Char → Prop where
  | last {n : UInt8} {cs : List Char} : IsNumber n.toNat cs → Numbers [n] cs
  | cons {n : UInt8} {ns : List UInt8} {front rest : List Char} :
      IsNumber n.toNat front → Numbers ns rest → Numbers (n :: ns) (front ++ ',' :: rest)

theorem not_blank_of_all {digits : List Char} (h : digits.all Char.isDigit = true) :
    ∀ c ∈ digits, Text.isBlank c = false :=
  fun c hc => Text.isBlank_eq_false_of_isDigit (List.all_eq_true.1 h c hc)

theorem isNumber_digits (n : Nat) : IsNumber n (Text.digits n) :=
  ⟨[], Text.digits n, [], (List.append_nil _).symm, rfl, rfl, Text.digits_ne_nil n,
    Text.all_isDigit_digits n, Text.digitsValue_digits n⟩

namespace IsNumber

variable {n : Nat} {cs : List Char}

theorem readDigits?_trim (h : IsNumber n cs) : Text.readDigits? (Text.trim cs) = some n := by
  obtain ⟨front, digits, back, rfl, hfront, hback, hne, hall, hvalue⟩ := h
  rw [Text.trim_append_blank (List.all_eq_true.1 hback),
    Text.trim_append_of_blank (List.all_eq_true.1 hfront),
    Text.trim_eq_self_of_forall (not_blank_of_all hall)]
  exact Text.readDigits?_eq_some_iff.2 ⟨hne, hall, hvalue⟩

theorem comma_not_mem (h : IsNumber n cs) : ',' ∉ cs := by
  obtain ⟨front, digits, back, rfl, hfront, hback, -, hall, -⟩ := h
  simp only [List.mem_append, not_or]
  refine ⟨⟨fun hc => ?_, fun hc => ?_⟩, fun hc => ?_⟩
  · exact absurd (List.all_eq_true.1 hfront ',' hc) (by decide)
  · exact absurd (List.all_eq_true.1 hall ',' hc) (by decide)
  · exact absurd (List.all_eq_true.1 hback ',' hc) (by decide)

/-- Without the blanks before it a number begins with a digit. -/
theorem trimStart_append (h : IsNumber n cs) (rest : List Char) :
    ∃ c tail, Text.trimStart (cs ++ rest) = c :: tail ++ rest ∧ c.isDigit = true ∧
      IsNumber n (c :: tail) := by
  obtain ⟨front, digits, back, rfl, hfront, hback, hne, hall, hvalue⟩ := h
  cases digits with
  | nil => exact absurd rfl hne
  | cons c digits =>
    have hc : c.isDigit = true := List.all_eq_true.1 hall c List.mem_cons_self
    refine ⟨c, digits ++ back, ?_, hc, [], c :: digits, back, rfl, rfl, hback, hne, hall, hvalue⟩
    rw [List.append_assoc, List.append_assoc, List.cons_append, Text.trimStart_append_cons
      (List.all_eq_true.1 hfront) (Text.isBlank_eq_false_of_isDigit hc), ← List.append_assoc]
    rfl

theorem trimEnd (h : IsNumber n cs) : IsNumber n (Text.trimEnd cs) := by
  obtain ⟨front, digits, back, rfl, hfront, hback, hne, hall, hvalue⟩ := h
  refine ⟨front, digits, [], ?_, hfront, rfl, hne, hall, hvalue⟩
  have hlast : Text.isBlank (digits.getLast hne) = false :=
    not_blank_of_all hall _ (List.getLast_mem hne)
  rw [← List.dropLast_concat_getLast hne, ← List.append_assoc, List.append_assoc _ [_],
    List.singleton_append, Text.trimEnd_append_cons hlast,
    Text.trimEnd_eq_nil (List.all_eq_true.1 hback), List.append_nil]

end IsNumber

theorem channel?_of_isNumber {n : UInt8} {cs : List Char} (h : IsNumber n.toNat cs) :
    channel? cs = some n := by
  rw [channel?, Text.readUnsigned?_of_readDigits? h.readDigits?_trim n.toNat_lt, Option.map_some,
    UInt8.ofNat_toNat]

namespace Numbers

variable {ns : List UInt8} {cs : List Char}

theorem mapM_channel? (h : Numbers ns cs) : (Text.splitAll ',' cs).mapM channel? = some ns := by
  induction h with
  | last hn =>
    rw [Text.splitAll_of_not_mem hn.comma_not_mem]
    simp [channel?_of_isNumber hn]
  | cons hn _ ih =>
    rw [Text.splitAll_append hn.comma_not_mem, List.mapM_cons, channel?_of_isNumber hn, ih]
    rfl

theorem trimStart (h : Numbers ns cs) :
    ∃ c tail, Text.trimStart cs = c :: tail ∧ c.isDigit = true ∧ Numbers ns (c :: tail) := by
  cases h with
  | last hn =>
    obtain ⟨c, tail, htrim, hc, hn'⟩ := hn.trimStart_append []
    rw [List.append_nil, List.append_nil] at htrim
    exact ⟨c, tail, htrim, hc, .last hn'⟩
  | @cons n ns front rest hn hrest =>
    obtain ⟨c, tail, htrim, hc, hn'⟩ := hn.trimStart_append (',' :: rest)
    exact ⟨c, tail ++ ',' :: rest, htrim, hc, .cons hn' hrest⟩

theorem trimEnd (h : Numbers ns cs) : Numbers ns (Text.trimEnd cs) := by
  induction h with
  | last hn => exact .last hn.trimEnd
  | cons hn _ ih =>
    rw [Text.trimEnd_append_cons (by decide)]
    exact .cons hn ih

/-- Numbers begin with a digit where no blanks are left around them. -/
theorem trim (h : Numbers ns cs) :
    ∃ c tail, Text.trim cs = c :: tail ∧ c.isDigit = true ∧ Numbers ns (c :: tail) := by
  obtain ⟨c, tail, htrim, hc, hns⟩ := h.trimStart
  have hend := hns.trimEnd
  rw [Text.trim, htrim]
  have hcons : Text.trimEnd (c :: tail) = c :: Text.trimEnd tail :=
    Text.trimEnd_append_cons (Text.isBlank_eq_false_of_isDigit hc) [] tail
  rw [hcons] at hend ⊢
  exact ⟨c, Text.trimEnd tail, rfl, hc, hend⟩

theorem comma_mem {n m : UInt8} (h : Numbers (n :: m :: ns) cs) : ',' ∈ cs := by
  cases h with
  | cons _ _ => simp

end Numbers

/-! ### The forms of a color -/

/-- The channels of the color, with or without a fourth one. -/
def Channels (color : Palette.Rgb) (ns : List UInt8) : Prop :=
  ns = [color.red, color.green, color.blue] ∨
    ∃ alpha, ns = [color.red, color.green, color.blue, alpha]

/-- The two hexadecimal digits of an octet. -/
def octetDigits (n : UInt8) : List Nat := [n.toNat / 16, n.toNat % 16]

/-- The text writes the color, in lower case. Of octets with two equal digits one digit
    may be written. -/
inductive Writes (color : Palette.Rgb) : List Char → Prop where
  | hex {ns : List UInt8} : Channels color ns →
      Writes color ('#' :: (ns.flatMap octetDigits).map Nat.digitChar)
  | shortHex {ns : List UInt8} : Channels color ns → (∀ n ∈ ns, 17 ∣ n.toNat) →
      Writes color ('#' :: (ns.map fun n => n.toNat / 17).map Nat.digitChar)
  | numbers {ns : List UInt8} {cs : List Char} : Channels color ns → Numbers ns cs →
      Writes color cs
  | enclosed {ns : List UInt8} {cs opening : List Char} : Channels color ns → Numbers ns cs →
      opening = "rgb(".toList ∨ opening = "rgba(".toList → Writes color (opening ++ cs ++ [')'])

variable {color : Palette.Rgb} {ns : List UInt8} {cs : List Char}

theorem hexDigit?_digitChar {d : Nat} (h : d < 16) :
    hexDigit? d.digitChar = some d ∧ Text.isBlank d.digitChar = false := by
  have hall : ∀ d < 16, hexDigit? d.digitChar = some d ∧ Text.isBlank d.digitChar = false := by
    decide
  exact hall d h

theorem mapM_hexDigit? {ds : List Nat} (h : ∀ d ∈ ds, d < 16) :
    (ds.map Nat.digitChar).mapM hexDigit? = some ds := by
  induction ds with
  | nil => rfl
  | cons d ds ih =>
    obtain ⟨hd, hds⟩ := List.forall_mem_cons.1 h
    rw [List.map_cons, List.mapM_cons, (hexDigit?_digitChar hd).1, ih hds]
    rfl

theorem octetDigits_lt (ns : List UInt8) : ∀ d ∈ ns.flatMap octetDigits, d < 16 := by
  intro d hd
  obtain ⟨n, -, hn⟩ := List.mem_flatMap.1 hd
  have hlt := n.toNat_lt
  simp only [octetDigits, List.mem_cons, List.not_mem_nil, or_false] at hn
  omega

theorem shortDigits_lt (ns : List UInt8) : ∀ d ∈ ns.map fun n => n.toNat / 17, d < 16 := by
  intro d hd
  obtain ⟨n, -, rfl⟩ := List.mem_map.1 hd
  have hlt := n.toNat_lt
  omega

theorem Channels.ofHex?_octetDigits (h : Channels color ns) :
    ofHex? ((ns.flatMap octetDigits).map Nat.digitChar) = some color := by
  have hoctet : ∀ n : UInt8, UInt8.ofNat (16 * (n.toNat / 16) + n.toNat % 16) = n := by
    intro n
    rw [Nat.div_add_mod, UInt8.ofNat_toNat]
  have hcolor : ofHex? ((ns.flatMap octetDigits).map Nat.digitChar) =
      some ⟨.ofNat (16 * (color.red.toNat / 16) + color.red.toNat % 16),
        .ofNat (16 * (color.green.toNat / 16) + color.green.toNat % 16),
        .ofNat (16 * (color.blue.toNat / 16) + color.blue.toNat % 16)⟩ := by
    rw [ofHex?, mapM_hexDigit? (octetDigits_lt ns)]
    rcases h with rfl | ⟨alpha, rfl⟩ <;> rfl
  rw [hcolor, hoctet, hoctet, hoctet]

theorem Channels.ofHex?_shortDigits (h : Channels color ns) (hshort : ∀ n ∈ ns, 17 ∣ n.toNat) :
    ofHex? ((ns.map fun n => n.toNat / 17).map Nat.digitChar) = some color := by
  have hoctet : ∀ n ∈ ns, UInt8.ofNat (17 * (n.toNat / 17)) = n := by
    intro n hn
    rw [Nat.mul_div_cancel' (hshort n hn), UInt8.ofNat_toNat]
  rw [ofHex?, mapM_hexDigit? (shortDigits_lt ns)]
  rcases h with rfl | ⟨alpha, rfl⟩ <;> simp_all

theorem Channels.ofChannels?_numbers (h : Channels color ns) (hns : Numbers ns cs) :
    ofChannels? cs = some color := by
  rw [ofChannels?, hns.mapM_channel?]
  rcases h with rfl | ⟨alpha, rfl⟩ <;> rfl

theorem enclosed?_append (opening : String) (inner : List Char) :
    enclosed? opening (opening.toList ++ inner ++ [')']) = some inner := by
  rw [enclosed?, List.append_assoc, Text.isPrefixOf?_append]
  simp

/-- A color that begins with a digit is told by its numbers. -/
theorem read?_cons_of_isDigit {c : Char} (h : c.isDigit = true) (tail : List Char) :
    read? (c :: tail) =
      if ',' ∈ c :: tail then (ofChannels? (c :: tail)).map nearest
      else
        match Text.readDigits? (c :: tail) with
        | some n => if n < 256 then some (.indexed n) else none
        | none => (Palette.namedIndex? (String.ofList (c :: tail))).map .indexed := by
  have hc : ∀ d : Char, d.isDigit = false → c ≠ d := by
    rintro d hd rfl
    exact absurd (hd.symm.trans h) Bool.false_ne_true
  have hminus : c :: tail ≠ ['-', '1'] := fun heq => hc '-' (by decide) (List.cons.inj heq).1
  have hhash : (c :: tail).head? ≠ some '#' := fun heq => hc '#' (by decide) (Option.some.inj heq)
  have hopening : ∀ opening : List Char, ('r' :: opening).isPrefixOf? (c :: tail) = none := by
    intro opening
    simp [List.isPrefixOf?, (hc 'r' (by decide)).symm]
  have hrgba : enclosed? "rgba(" (c :: tail) = none := by
    rw [enclosed?, show "rgba(".toList = 'r' :: "gba(".toList from rfl, hopening]
    rfl
  have hrgb : enclosed? "rgb(" (c :: tail) = none := by
    rw [enclosed?, show "rgb(".toList = 'r' :: "gb(".toList from rfl, hopening]
    rfl
  rw [read?, if_neg hminus, if_neg hhash, hrgba, hrgb]
  rfl

theorem read?_hex {ds : List Nat} (hds : ∀ d ∈ ds, d < 16)
    (h : ofHex? (ds.map Nat.digitChar) = some color) :
    read? (Text.trim ('#' :: ds.map Nat.digitChar)) = some (nearest color) := by
  have hblank : ∀ c ∈ '#' :: ds.map Nat.digitChar, Text.isBlank c = false := by
    refine List.forall_mem_cons.2 ⟨by decide, ?_⟩
    intro c hc
    obtain ⟨d, hd, rfl⟩ := List.mem_map.1 hc
    exact (hexDigit?_digitChar (hds d hd)).2
  rw [Text.trim_eq_self_of_forall hblank, read?, if_neg (by simp), if_pos List.head?_cons,
    List.tail_cons, h]
  rfl

theorem read?_enclosed {opening : List Char}
    (hopening : opening = "rgb(".toList ∨ opening = "rgba(".toList)
    (h : ofChannels? cs = some color) :
    read? (Text.trim (opening ++ cs ++ [')'])) = some (nearest color) := by
  have htrim : Text.trim (opening ++ cs ++ [')']) = opening ++ cs ++ [')'] := by
    refine Text.trim_eq_self ?_ ?_
    · rcases hopening with rfl | rfl <;> simp <;> decide
    · simp
      decide
  rw [htrim]
  rcases hopening with rfl | rfl
  · have hrgba : enclosed? "rgba(" ("rgb(".toList ++ cs ++ [')']) = none := rfl
    rw [read?, if_neg (by simp), if_neg (by simp), hrgba, Option.none_or, enclosed?_append]
    simp [h]
  · rw [read?, if_neg (by simp), if_neg (by simp), enclosed?_append, Option.some_or]
    simp [h]

/-- All forms of a color are read as the nearest entry of the palette. -/
theorem read?_writes (h : Writes color cs) : read? (Text.trim cs) = some (nearest color) := by
  cases h with
  | @hex ns hchannels => exact read?_hex (octetDigits_lt ns) hchannels.ofHex?_octetDigits
  | @shortHex ns hchannels hshort =>
    exact read?_hex (shortDigits_lt ns) (hchannels.ofHex?_shortDigits hshort)
  | @numbers ns cs hchannels hns =>
    obtain ⟨c, tail, htrim, hc, hns⟩ := hns.trim
    have hcomma : ',' ∈ c :: tail := by
      rcases hchannels with rfl | ⟨alpha, rfl⟩ <;> exact hns.comma_mem
    rw [htrim, read?_cons_of_isDigit hc, if_pos hcomma, hchannels.ofChannels?_numbers hns]
    rfl
  | @enclosed ns cs opening hchannels hns hopening =>
    exact read?_enclosed hopening (hchannels.ofChannels?_numbers hns)

/-- A number alone is the entry of that number, if there is one. -/
theorem read?_number {n : Nat} (h : IsNumber n cs) :
    read? (Text.trim cs) = if n < 256 then some (.indexed n) else none := by
  have hread := h.readDigits?_trim
  obtain ⟨hne, hall, -⟩ := Text.readDigits?_eq_some_iff.1 hread
  cases htrim : Text.trim cs with
  | nil => exact absurd htrim hne
  | cons c tail =>
    rw [htrim] at hread hall
    have hcomma : ',' ∉ c :: tail :=
      fun hmem => absurd (List.all_eq_true.1 hall ',' hmem) (by decide)
    rw [read?_cons_of_isDigit (List.all_eq_true.1 hall c List.mem_cons_self), if_neg hcomma, hread]

end Color

/-! ### Modifiers with a color -/

/-- What a color may be the color of. -/
inductive Ground where
  | text
  | background

namespace Ground

/-- What stands before the color, in lower case. -/
def mark : Ground → List Char
  | text => "fg:".toList
  | background => "bg:".toList

def modifier : Ground → Color → Modifier
  | text => .foreground
  | background => .background

/-- The first number of a control sequence for an entry of the palette. -/
def base : Ground → Nat
  | text => 38
  | background => 48

theorem trim_mark_append (ground : Ground) (form : List Char) :
    Text.trim (ground.mark ++ form) = ground.mark ++ Text.trimEnd form := by
  have hcolon : Text.isBlank ':' = false := by decide
  cases ground with
  | text => exact Text.trimEnd_append_cons hcolon ['f', 'g'] form
  | background => exact Text.trimEnd_append_cons hcolon ['b', 'g'] form

end Ground

/-- The modifiers without an argument have no colon in their names. -/
theorem Modifier.lookup_plain_eq_none {cs : List Char} (h : ':' ∈ cs) :
    plain.lookup (String.ofList cs) = none := by
  have hnames : ∀ entry ∈ plain, ':' ∉ entry.1.toList := by decide
  refine List.lookup_eq_none_iff.2 fun entry hentry => bne_iff_ne.2 ?_
  intro heq
  refine hnames entry hentry ?_
  rwa [← heq, String.toList_ofList]

/-- Behind a mark everything is the color. -/
theorem Modifier.read?_ground (ground : Ground) {token form : List Char}
    (h : token.map Char.toLower = ground.mark ++ form) :
    read? token = (Color.read? (Text.trim form)).map ground.modifier := by
  have hlowered : (Text.trim token).map Char.toLower = ground.mark ++ Text.trimEnd form := by
    rw [Text.map_toLower_trim, h, ground.trim_mark_append]
  have hcolon : ':' ∈ ground.mark ++ Text.trimEnd form := by
    cases ground <;> simp [Ground.mark]
  rw [read?, hlowered, lookup_plain_eq_none hcolon, ← Text.trim_trimEnd form]
  cases ground with
  | text =>
    have hmark : "fg:".toList.isPrefixOf? (Ground.text.mark ++ Text.trimEnd form) =
        some (Text.trimEnd form) :=
      Text.isPrefixOf?_append _ _
    rw [hmark]
    rfl
  | background =>
    have hmark : "bg:".toList.isPrefixOf? (Ground.background.mark ++ Text.trimEnd form) =
        some (Text.trimEnd form) :=
      Text.isPrefixOf?_append _ _
    have hother : "fg:".toList.isPrefixOf? (Ground.background.mark ++ Text.trimEnd form) = none :=
      rfl
    rw [hmark, hother]
    rfl

namespace Color

theorem compile_ground (ground : Ground) {token form : List Char} {index : Nat}
    (h : token.map Char.toLower = ground.mark ++ form)
    (hread : read? (Text.trim form) = some (.indexed index)) :
    compile [token] = .ok (sequence [ground.base, 5, index]) := by
  refine compile_singleton_eq_ok_iff.2 ⟨ground.modifier (.indexed index), ?_, ?_⟩
  · rw [Modifier.read?_ground ground h, hread, Option.map_some]
  · cases ground <;> rfl

/-- All forms of a color compile to the same numbers, those of the nearest entry of the
    palette, and a number alone compiles to the entry of that number or, where there is
    none, not at all. -/
theorem compile_writes (ground : Ground) :
    (∀ color form token, Writes color form → token.map Char.toLower = ground.mark ++ form →
      compile [token] = .ok (sequence [ground.base, 5, Palette.nearestEntry color])) ∧
    ∀ n form token, IsNumber n form → token.map Char.toLower = ground.mark ++ form →
      (n ≤ 255 → compile [token] = .ok (sequence [ground.base, 5, n])) ∧
      (255 < n → compile [token] = .error ⟨String.ofList token⟩) := by
  constructor
  · intro color form token hwrites htoken
    exact compile_ground ground htoken (read?_writes hwrites)
  · intro n form token hnumber htoken
    have hread := read?_number hnumber
    refine ⟨fun hle => ?_, fun hlt => ?_⟩
    · rw [if_pos (by omega)] at hread
      exact compile_ground ground htoken hread
    · rw [if_neg (by omega)] at hread
      refine compile_singleton_eq_error_iff.2 ⟨?_, rfl⟩
      rw [Modifier.read?_ground ground htoken, hread, Option.map_none]

/-- A color in four forms, with capitals, blanks, a leading zero and a fourth channel,
    and the numbers on both sides of the bound. -/
theorem compile_writes_orange :
    compile ["Fg:#FF8800".toList] = .ok "\x1b[38;5;208m" ∧
      compile ["bg:#F80c".toList] = .ok "\x1b[48;5;208m" ∧
      compile ["BG: 255,136 , 0".toList] = .ok "\x1b[48;5;208m" ∧
      compile ["bg:RGB(255,0136, 0,7)".toList] = .ok "\x1b[48;5;208m" ∧
      compile ["fg:255".toList] = .ok "\x1b[38;5;255m" ∧
      compile ["fg:256".toList] = .error ⟨"fg:256"⟩ := by
  obtain ⟨htext, hnumber⟩ := compile_writes .text
  obtain ⟨hbackground, -⟩ := compile_writes .background
  have hshort : ∀ n ∈ [(255 : UInt8), 136, 0, 204], 17 ∣ n.toNat := by simp
  have hnumbers : Numbers [255, 136, 0] " 255,136 , 0".toList :=
    .cons ⟨" ".toList, "255".toList, [], rfl, rfl, rfl, by decide, rfl, rfl⟩
      (.cons ⟨[], "136".toList, " ".toList, rfl, rfl, rfl, by decide, rfl, rfl⟩
        (.last ⟨" ".toList, "0".toList, [], rfl, rfl, rfl, by decide, rfl, rfl⟩))
  have henclosed : Numbers [255, 136, 0, 7] "255,0136, 0,7".toList :=
    .cons ⟨[], "255".toList, [], rfl, rfl, rfl, by decide, rfl, rfl⟩
      (.cons ⟨[], "0136".toList, [], rfl, rfl, rfl, by decide, rfl, rfl⟩
        (.cons ⟨" ".toList, "0".toList, [], rfl, rfl, rfl, by decide, rfl, rfl⟩
          (.last ⟨[], "7".toList, [], rfl, rfl, rfl, by decide, rfl, rfl⟩)))
  refine ⟨?_, ?_, ?_, ?_, ?_, ?_⟩
  · exact htext ⟨255, 136, 0⟩ _ _ (.hex (.inl rfl)) rfl
  · exact hbackground ⟨255, 136, 0⟩ _ _ (.shortHex (.inr ⟨204, rfl⟩) hshort) rfl
  · exact hbackground ⟨255, 136, 0⟩ _ _ (.numbers (.inl rfl) hnumbers) rfl
  · exact hbackground ⟨255, 136, 0⟩ _ _ (.enclosed (.inr ⟨7, rfl⟩) henclosed (.inl rfl)) rfl
  · exact (hnumber 255 _ _ (isNumber_digits 255) rfl).1 (by decide)
  · exact (hnumber 256 _ _ (isNumber_digits 256) rfl).2 (by decide)

end Color

end Logbook
