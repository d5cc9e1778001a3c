import RackMcp.Core.Canonical
import RackMcp.Lib.PrefixCode

/-!
# Equal canonical texts are of equal values

The text of a value can be read back in only one way, so two values with one canonical text are the same up to the order
of the members of their objects, and those always have one. How a real is written is a parameter, of which the digits,
the mark of a real and the exactness of 17 digits are used.
-/

namespace RackMcp

open PrefixCode

/-! ### What jansson holds -/

/-- The finite values of a C double. -/
def IsBinary64 (q : ℚ) : Prop := ∃ m e : ℤ, |m| < 2 ^ 53 ∧ -1074 ≤ e ∧ e ≤ 971 ∧ q = m * (2 : ℚ) ^ e

/-- A value that jansson holds: a real is a finite double, and no object has a key twice. -/
inductive Loaded : Json → Prop where
  | null : Loaded .null
  | bool (b : Bool) : Loaded (.bool b)
  | integer (n : ℤ) : Loaded (.integer n)
  | real (q : ℚ) (exact : IsBinary64 q) : Loaded (.real (.finite q))
  | string (s : String) : Loaded (.string s)
  | array (items : List Json) (loaded : ∀ v ∈ items, Loaded v) : Loaded (.array items)
  | object (members : List (String × Json)) (keys : (members.map Prod.fst).Nodup)
      (loaded : ∀ m ∈ members, Loaded m.2) : Loaded (.object members)

/-- The characters of a number. -/
def isNumeralChar (c : Char) : Bool := c.isDigit || c == '-' || c == '+' || c == '.' || c == 'e'

/-- How jansson writes a real: with a point or an exponent, and in digits enough to tell it from any other. -/
structure RealNumeral (numeral : Double → String) : Prop where
  chars : ∀ q, IsBinary64 q → ∀ c ∈ (numeral (.finite q)).toList, isNumeralChar c = true
  mark : ∀ q, IsBinary64 q → ∃ c ∈ (numeral (.finite q)).toList, c = '.' ∨ c = 'e'
  injective : ∀ p q, IsBinary64 p → IsBinary64 q → numeral (.finite p) = numeral (.finite q) → p = q

/-! ### Strings -/

/-- The value of an upper-case hex digit. -/
def upperHexValue (c : Char) : Nat := if c.toNat < 65 then c.toNat - 48 else c.toNat - 55

/-- Reads one character of a string. -/
def unescapeChar : List Char → Option (Char × List Char)
  | '\x5c' :: '\x22' :: rest => some ('\x22', rest)
  | '\x5c' :: '\x5c' :: rest => some ('\x5c', rest)
  | '\x5c' :: 'b' :: rest => some ('\x08', rest)
  | '\x5c' :: 'f' :: rest => some ('\x0c', rest)
  | '\x5c' :: 'n' :: rest => some ('\n', rest)
  | '\x5c' :: 'r' :: rest => some ('\r', rest)
  | '\x5c' :: 't' :: rest => some ('\t', rest)
  | '\x5c' :: 'u' :: _ :: _ :: high :: low :: rest =>
    some (Char.ofNat (16 * upperHexValue high + upperHexValue low), rest)
  | c :: rest => some (c, rest)
  | [] => none

theorem unescapeChar_of_ne {c : Char} (h : c ≠ '\x5c') (rest : List Char) :
    unescapeChar (c :: rest) = some (c, rest) := by
  unfold unescapeChar
  split
  case h_9 heq =>
    obtain ⟨rfl, rfl⟩ := List.cons.inj heq
    rfl
  case h_10 heq => cases heq
  all_goals
    rename_i heq
    exact absurd (List.cons.inj heq).1 h

theorem toList_controlEscape (high low : Char) :
    ("\\u00" ++ String.ofList [high, low]).toList = ['\x5c', 'u', '0', '0', high, low] := by
  rw [String.toList_append, String.toList_ofList, String.toList_ofList]
  rfl

theorem unescapeChar_escapeChar (c : Char) (rest : List Char) :
    unescapeChar ((escapeChar c).toList ++ rest) = some (c, rest) := by
  unfold escapeChar
  split_ifs with hquote hbackslash hb hf hn hr ht hcontrol
  · subst hquote
    rfl
  · subst hbackslash
    rfl
  · subst hb
    rfl
  · subst hf
    rfl
  · subst hn
    rfl
  · subst hr
    rfl
  · subst ht
    rfl
  · have hall : ∀ n < 32, Char.ofNat (16 * upperHexValue (upperHexDigit (n / 16)) +
        upperHexValue (upperHexDigit (n % 16))) = Char.ofNat n := by decide
    have hread := hall c.toNat hcontrol
    rw [Char.ofNat_toNat] at hread
    rw [toList_controlEscape]
    show some (Char.ofNat _, rest) = _
    rw [hread]
  · rw [String.toList_singleton, List.singleton_append]
    exact unescapeChar_of_ne hbackslash rest

theorem readable_escapeChar : Readable (fun c => (escapeChar c).toList) (fun _ => True) fun _ => True :=
  readable_of_decode unescapeChar fun c rest _ _ => unescapeChar_escapeChar c rest

/-- No escaped character starts with a quote. -/
theorem head_escapeChar (c : Char) : ∃ d rest, (escapeChar c).toList = d :: rest ∧ d ≠ '\x22' := by
  unfold escapeChar
  split_ifs with hquote
  · exact ⟨_, _, rfl, by decide⟩
  · exact ⟨_, _, rfl, by decide⟩
  · exact ⟨_, _, rfl, by decide⟩
  · exact ⟨_, _, rfl, by decide⟩
  · exact ⟨_, _, rfl, by decide⟩
  · exact ⟨_, _, rfl, by decide⟩
  · exact ⟨_, _, rfl, by decide⟩
  · exact ⟨_, _, toList_controlEscape _ _, by decide⟩
  · exact ⟨c, [], String.toList_singleton c, hquote⟩

theorem toList_escapeText (s : String) : (escapeText s).toList = s.toList.flatMap fun c => (escapeChar c).toList := by
  have hchars : ∀ chars : List Char, (escapeChars chars).toList = chars.flatMap fun c => (escapeChar c).toList := by
    intro chars
    induction chars with
    | nil => rfl
    | cons c rest ih => rw [escapeChars, String.toList_append, ih, List.flatMap_cons]
  exact hchars s.toList

/-- A string in quotes. -/
def quoted (s : String) : List Char := '\x22' :: ((escapeText s).toList ++ ['\x22'])

theorem readable_quoted : Readable quoted (fun _ => True) fun _ => True := by
  intro s t a b _ _ _ _ h
  unfold quoted at h
  rw [List.cons_append, List.cons_append, List.cons.injEq, toList_escapeText, toList_escapeText] at h
  obtain ⟨hchars, hrest⟩ := readable_terminated readable_escapeChar (fun c _ => head_escapeChar c) s.toList t.toList a b
    (fun _ _ => trivial) (fun _ _ => trivial) trivial trivial h.2
  exact ⟨String.toList_inj.mp hchars, hrest⟩

/-! ### Numbers -/

theorem toList_toString_nat (n : ℕ) : (toString (n : ℤ)).toList = Nat.toDigits 10 n := by
  rw [show toString (n : ℤ) = toString n from rfl, Nat.toString_eq_repr, Nat.toList_repr]

theorem toList_toString_negSucc (n : ℕ) : (toString (Int.negSucc n)).toList = '-' :: Nat.toDigits 10 (n + 1) := by
  rw [show toString (Int.negSucc n) = "-" ++ toString (n + 1) from rfl, String.toList_append, Nat.toString_eq_repr,
    Nat.toList_repr]
  rfl

/-- An integer has no mark of a real. -/
theorem integer_char {n : ℤ} {c : Char} (h : c ∈ (toString n).toList) : c.isDigit = true ∨ c = '-' := by
  rcases n with n | n
  · rw [Int.ofNat_eq_natCast, toList_toString_nat] at h
    exact .inl (Nat.isDigit_of_mem_toDigits (by decide) (by decide) h)
  · rw [toList_toString_negSucc, List.mem_cons] at h
    exact h.symm.imp_left (Nat.isDigit_of_mem_toDigits (by decide) (by decide))

theorem toDigits_injective {m n : ℕ} (h : Nat.toDigits 10 m = Nat.toDigits 10 n) : m = n := by
  rw [← Nat.ofDigitChars_ten_toDigits (n := m), h, Nat.ofDigitChars_ten_toDigits]

theorem dash_ne_toDigits {m : ℕ} {l : List Char} (h : Nat.toDigits 10 m = '-' :: l) : False := by
  have hdash := Nat.isDigit_of_mem_toDigits (b := 10) (n := m) (by decide) (by decide) (h ▸ List.mem_cons_self)
  exact absurd hdash (by decide)

theorem integer_injective {m n : ℤ} (h : (toString m).toList = (toString n).toList) : m = n := by
  rcases m with m | m <;> rcases n with n | n
  · rw [Int.ofNat_eq_natCast, Int.ofNat_eq_natCast, toList_toString_nat, toList_toString_nat] at h
    rw [toDigits_injective h]
  · rw [Int.ofNat_eq_natCast, toList_toString_nat, toList_toString_negSucc] at h
    exact (dash_ne_toDigits h).elim
  · rw [Int.ofNat_eq_natCast, toList_toString_nat, toList_toString_negSucc] at h
    exact (dash_ne_toDigits h.symm).elim
  · rw [toList_toString_negSucc, toList_toString_negSucc, List.cons.injEq] at h
    have hdigits := toDigits_injective h.2
    rw [Nat.succ_injective hdigits]

/-! ### Values -/

section text
variable {numeral : Double → String}

/-- The text of a value, as characters. -/
def text (numeral : Double → String) (v : Json) : List Char := (jsonText numeral v).toList

/-- The items after the first one. -/
def itemsRest (numeral : Double → String) (items : List Json) : List Char :=
  items.flatMap fun v => ',' :: text numeral v

/-- The members after the first one. -/
def membersRest (numeral : Double → String) (members : List (String × Json)) : List Char :=
  members.flatMap fun m => ',' :: (quoted m.1 ++ ':' :: text numeral m.2)

theorem text_null : text numeral .null = ['n', 'u', 'l', 'l'] := by
  unfold text
  rw [jsonText]
  rfl

theorem text_bool (b : Bool) :
    text numeral (.bool b) = if b then ['t', 'r', 'u', 'e'] else ['f', 'a', 'l', 's', 'e'] := by
  unfold text
  rw [jsonText]
  rcases b
  · rfl
  · rfl

theorem text_string (s : String) : text numeral (.string s) = quoted s := by
  unfold text quoted
  rw [jsonText, String.toList_append, String.toList_append]
  rfl

theorem text_array_nil : text numeral (.array []) = ['[', ']'] := by
  unfold text
  rw [jsonText, itemsText]
  rfl

theorem text_array_cons (v : Json) (rest : List Json) :
    text numeral (.array (v :: rest)) = '[' :: (text numeral v ++ (itemsRest numeral rest ++ [']'])) := by
  have hitems : ∀ (rest : List Json) (v : Json),
      (itemsText numeral (v :: rest)).toList = text numeral v ++ itemsRest numeral rest := by
    intro rest
    induction rest with
    | nil =>
      intro v
      rw [itemsText]
      exact (List.append_nil _).symm
    | cons w rest ih =>
      intro v
      rw [itemsText, String.toList_append, String.toList_append, ih]
      · unfold itemsRest text
        simp
      · exact List.cons_ne_nil w rest
  unfold text
  rw [jsonText, String.toList_append, String.toList_append, hitems]
  unfold text
  simp

theorem text_object_nil : text numeral (.object []) = ['\x7b', '\x7d'] := by
  unfold text
  rw [jsonText, membersText]
  rfl

theorem text_object_cons (key : String) (v : Json) (rest : List (String × Json)) :
    text numeral (.object ((key, v) :: rest)) =
      '\x7b' :: (quoted key ++ ':' :: (text numeral v ++ (membersRest numeral rest ++ ['\x7d']))) := by
  have hmembers : ∀ (rest : List (String × Json)) (key : String) (v : Json),
      (membersText numeral ((key, v) :: rest)).toList =
        quoted key ++ ':' :: (text numeral v ++ membersRest numeral rest) := by
    intro rest
    induction rest with
    | nil =>
      intro key v
      rw [membersText]
      unfold quoted text membersRest
      simp
    | cons m rest ih =>
      intro key v
      obtain ⟨key', v'⟩ := m
      rw [membersText, String.toList_append, ih]
      · unfold quoted text membersRest
        simp [text, quoted]
      · exact List.cons_ne_nil _ rest
  unfold text
  rw [jsonText, String.toList_append, String.toList_append, hmembers]
  unfold text
  simp

/-- The kinds of values that the first character tells apart. -/
inductive TextKind where
  | null | bool | number | string | array | object | none
deriving DecidableEq

def kindOfChar (c : Char) : TextKind :=
  if c = 'n' then .null
  else if c = 't' ∨ c = 'f' then .bool
  else if isNumeralChar c then .number
  else if c = '\x22' then .string
  else if c = '[' then .array
  else if c = '\x7b' then .object
  else .none

def kindOfValue : Json → TextKind
  | .null => .null
  | .bool _ => .bool
  | .integer _ | .real _ => .number
  | .string _ => .string
  | .array _ => .array
  | .object _ => .object

theorem kindOfChar_of_numeral {c : Char} (h : isNumeralChar c = true) : kindOfChar c = .number := by
  have hne : ∀ d : Char, isNumeralChar d = false → c ≠ d := by
    rintro d hd rfl
    rw [h] at hd
    cases hd
  unfold kindOfChar
  rw [if_neg (hne 'n' (by decide)), if_neg (not_or.mpr ⟨hne 't' (by decide), hne 'f' (by decide)⟩), if_pos h]

theorem numeralChar_of_integer {n : ℤ} {c : Char} (h : c ∈ (toString n).toList) : isNumeralChar c = true := by
  rcases integer_char h with hdigit | rfl
  · unfold isNumeralChar
    rw [hdigit]
    rfl
  · decide

variable (hnumeral : RealNumeral numeral)

include hnumeral

/-- The first character tells the kind. -/
theorem head_text {v : Json} (hv : Loaded v) : ∃ c rest, text numeral v = c :: rest ∧ kindOfChar c = kindOfValue v := by
  have hnumber : ∀ l : List Char, l ≠ [] → (∀ c ∈ l, isNumeralChar c = true) →
      ∃ c rest, l = c :: rest ∧ kindOfChar c = .number := by
    intro l hne hchars
    obtain ⟨c, rest, rfl⟩ := List.exists_cons_of_ne_nil hne
    exact ⟨c, rest, rfl, kindOfChar_of_numeral (hchars c List.mem_cons_self)⟩
  cases hv with
  | null => exact ⟨'n', _, text_null, by decide⟩
  | bool b =>
    rw [text_bool]
    rcases b
    · exact ⟨'f', _, rfl, by decide⟩
    · exact ⟨'t', _, rfl, by decide⟩
  | integer n =>
    refine hnumber _ ?_ fun c hc => numeralChar_of_integer hc
    intro hnil
    rcases n with n | n
    · exact Nat.toDigits_ne_nil ((toList_toString_nat n).symm.trans hnil)
    · exact List.cons_ne_nil _ _ ((toList_toString_negSucc n).symm.trans hnil)
  | real q exact =>
    refine hnumber _ ?_ (hnumeral.chars q exact)
    obtain ⟨c, hc, -⟩ := hnumeral.mark q exact
    exact List.ne_nil_of_mem hc
  | string s => exact ⟨'\x22', _, text_string s, show kindOfChar '\x22' = .string by decide⟩
  | array items =>
    rcases items with _ | ⟨v, rest⟩
    · exact ⟨'[', _, text_array_nil, by decide⟩
    · exact ⟨'[', _, text_array_cons v rest, show kindOfChar '[' = .array by decide⟩
  | object members =>
    rcases members with _ | ⟨⟨key, v⟩, rest⟩
    · exact ⟨'\x7b', _, text_object_nil, by decide⟩
    · exact ⟨'\x7b', _, text_object_cons key v rest, show kindOfChar '\x7b' = .object by decide⟩

/-- Texts of two kinds differ. -/
theorem kind_of_text {v w : Json} (hv : Loaded v) (hw : Loaded w) {a b : List Char}
    (h : text numeral v ++ a = text numeral w ++ b) : kindOfValue v = kindOfValue w := by
  obtain ⟨c, rest, hc, hkind⟩ := head_text hnumeral hv
  obtain ⟨d, rest', hd, hkind'⟩ := head_text hnumeral hw
  rw [hc, hd, List.cons_append, List.cons_append, List.cons.injEq] at h
  rw [← hkind, ← hkind', h.1]

/-- A text does not begin with the end of another. -/
theorem start_of_text {v : Json} (hv : Loaded v) {c : Char} {a b : List Char} (h : text numeral v ++ a = c :: b) :
    kindOfChar c ≠ .none := by
  obtain ⟨d, rest, hd, hkind⟩ := head_text hnumeral hv
  rw [hd, List.cons_append, List.cons.injEq] at h
  rw [← h.1, hkind]
  cases v <;> exact TextKind.noConfusion

/-- Numbers are told apart by their text. -/
theorem number_of_text {v w : Json} (hv : Loaded v) (hw : Loaded w) (hkind : kindOfValue v = .number)
    (hkind' : kindOfValue w = .number) (h : text numeral v = text numeral w) : v = w := by
  have hmixed : ∀ (n : ℤ) (q : ℚ), IsBinary64 q → (toString n).toList ≠ (numeral (.finite q)).toList := by
    intro n q hq heq
    obtain ⟨c, hc, hmark⟩ := hnumeral.mark q hq
    rw [← heq] at hc
    rcases integer_char hc with hdigit | rfl
    · rcases hmark with rfl | rfl
      · exact absurd hdigit (by decide)
      · exact absurd hdigit (by decide)
    · exact absurd hmark (by decide)
  cases hv with
  | integer n =>
    cases hw with
    | integer m => rw [integer_injective h]
    | real q exact => exact absurd h (hmixed n q exact)
    | _ => cases hkind'
  | real q exact =>
    cases hw with
    | integer m => exact absurd h.symm (hmixed m q exact)
    | real p exact' => rw [hnumeral.injective q p exact exact' (String.toList_inj.mp h)]
    | _ => cases hkind'
  | _ => cases hkind

theorem numeralChar_of_text {v : Json} (hv : Loaded v) (hkind : kindOfValue v = .number) :
    ∀ c ∈ text numeral v, isNumeralChar c = true := by
  cases hv with
  | integer n => exact fun c hc => numeralChar_of_integer hc
  | real q exact => exact hnumeral.chars q exact
  | _ => cases hkind

omit hnumeral

/-- What follows a value in a text: nothing, or the end of what it stands in. -/
def Follows (a : List Char) : Prop := ∀ c ∈ a.head?, kindOfChar c = .none

theorem Follows.stops {a : List Char} (h : Follows a) : Stops (fun c => isNumeralChar c = true) a := by
  intro c hc hnumber
  have hnone := h c hc
  rw [kindOfChar_of_numeral hnumber] at hnone
  cases hnone

theorem follows_cons {c : Char} {a : List Char} (h : kindOfChar c = .none) : Follows (c :: a) := by
  intro d hd
  obtain rfl := Option.some.inj hd
  exact h

theorem follows_itemsRest (rest : List Json) (a : List Char) : Follows (itemsRest numeral rest ++ ']' :: a) := by
  rcases rest with _ | ⟨v, rest⟩
  · exact follows_cons (by decide)
  · exact follows_cons (by decide)

theorem follows_membersRest (rest : List (String × Json)) (a : List Char) :
    Follows (membersRest numeral rest ++ '\x7d' :: a) := by
  rcases rest with _ | ⟨m, rest⟩
  · exact follows_cons (by decide)
  · exact follows_cons (by decide)

mutual

/-- The text of a value can be read back in one way only. -/
theorem text_unique (hnumeral : RealNumeral numeral) (v w : Json) (hv : Loaded v) (hw : Loaded w) (a b : List Char)
    (ha : Follows a) (hb : Follows b) (h : text numeral v ++ a = text numeral w ++ b) : v = w ∧ a = b := by
  have hkind := kind_of_text hnumeral hv hw h
  by_cases hnumber : kindOfValue v = .number
  · obtain ⟨htext, hrest⟩ := run_unique (numeralChar_of_text hnumeral hv hnumber)
      (numeralChar_of_text hnumeral hw (hkind ▸ hnumber)) ha.stops hb.stops h
    exact ⟨number_of_text hnumeral hv hw hnumber (hkind ▸ hnumber) htext, hrest⟩
  match v, w with
  | .null, w =>
    cases w with
    | null => exact ⟨rfl, List.append_cancel_left h⟩
    | _ => cases hkind
  | .bool x, w =>
    cases w with
    | bool y =>
      rw [text_bool, text_bool] at h
      rcases x <;> rcases y
      · exact ⟨rfl, List.append_cancel_left h⟩
      · cases (List.cons.inj h).1
      · cases (List.cons.inj h).1
      · exact ⟨rfl, List.append_cancel_left h⟩
    | _ => cases hkind
  | .integer n, _ => exact absurd rfl hnumber
  | .real x, _ => exact absurd rfl hnumber
  | .string s, w =>
    cases w with
    | string t =>
      rw [text_string, text_string] at h
      obtain ⟨rfl, rfl⟩ := readable_quoted s t a b trivial trivial trivial trivial h
      exact ⟨rfl, rfl⟩
    | _ => cases hkind
  | .array xs, w =>
    cases w with
    | array ys =>
      have hxs : ∀ v ∈ xs, Loaded v := by
        cases hv with
        | array _ hxs => exact hxs
      have hys : ∀ w ∈ ys, Loaded w := by
        cases hw with
        | array _ hys => exact hys
      match xs, ys with
      | [], [] =>
        rw [text_array_nil] at h
        exact ⟨rfl, List.append_cancel_left h⟩
      | [], y :: ys =>
        rw [text_array_nil, text_array_cons] at h
        simp only [List.cons_append, List.append_assoc] at h
        exact absurd (by decide) (start_of_text hnumeral (hys y List.mem_cons_self) (List.cons.inj h).2.symm)
      | x :: xs, [] =>
        rw [text_array_nil, text_array_cons] at h
        simp only [List.cons_append, List.append_assoc] at h
        exact absurd (by decide) (start_of_text hnumeral (hxs x List.mem_cons_self) (List.cons.inj h).2)
      | x :: xs, y :: ys =>
        rw [text_array_cons, text_array_cons, List.cons_append, List.cons_append] at h
        simp only [List.append_assoc, List.cons_append, List.nil_append] at h
        obtain ⟨rfl, hrest⟩ := text_unique hnumeral x y (hxs x List.mem_cons_self) (hys y List.mem_cons_self) _ _
          (follows_itemsRest xs a) (follows_itemsRest ys b) (List.cons.inj h).2
        obtain ⟨rfl, rfl⟩ := items_unique hnumeral xs ys (fun v hv => hxs v (List.mem_cons_of_mem _ hv))
          (fun v hv => hys v (List.mem_cons_of_mem _ hv)) a b hrest
        exact ⟨rfl, rfl⟩
    | _ => cases hkind
  | .object ms, w =>
    cases w with
    | object ns =>
      have hms : ∀ m ∈ ms, Loaded m.2 := by
        cases hv with
        | object _ _ hms => exact hms
      have hns : ∀ m ∈ ns, Loaded m.2 := by
        cases hw with
        | object _ _ hns => exact hns
      match ms, ns with
      | [], [] =>
        rw [text_object_nil] at h
        exact ⟨rfl, List.append_cancel_left h⟩
      | [], (key, y) :: ns =>
        rw [text_object_nil, text_object_cons] at h
        exact absurd (List.cons.inj (List.cons.inj h).2).1 (by decide)
      | (key, x) :: ms, [] =>
        rw [text_object_nil, text_object_cons] at h
        exact absurd (List.cons.inj (List.cons.inj h).2).1 (by decide)
      | (key, x) :: ms, (key', y) :: ns =>
        rw [text_object_cons, text_object_cons] at h
        simp only [List.append_assoc, List.cons_append, List.nil_append] at h
        obtain ⟨rfl, hvalue⟩ := readable_quoted key key' _ _ trivial trivial trivial trivial (List.cons.inj h).2
        obtain ⟨rfl, hrest⟩ := text_unique hnumeral x y (hms _ List.mem_cons_self) (hns _ List.mem_cons_self) _ _
          (follows_membersRest ms a) (follows_membersRest ns b) (List.cons.inj hvalue).2
        obtain ⟨rfl, rfl⟩ := members_unique hnumeral ms ns (fun v hv => hms v (List.mem_cons_of_mem _ hv))
          (fun v hv => hns v (List.mem_cons_of_mem _ hv)) a b hrest
        exact ⟨rfl, rfl⟩
    | _ => cases hkind

theorem items_unique (hnumeral : RealNumeral numeral) (xs ys : List Json) (hxs : ∀ v ∈ xs, Loaded v)
    (hys : ∀ v ∈ ys, Loaded v) (a b : List Char)
    (h : itemsRest numeral xs ++ ']' :: a = itemsRest numeral ys ++ ']' :: b) : xs = ys ∧ a = b := by
  match xs, ys with
  | [], [] => exact ⟨rfl, (List.cons.inj h).2⟩
  | [], y :: ys => exact absurd (List.cons.inj h).1 (by decide)
  | x :: xs, [] => exact absurd (List.cons.inj h).1 (by decide)
  | x :: xs, y :: ys =>
    unfold itemsRest at h
    rw [List.flatMap_cons, List.flatMap_cons, List.cons_append, List.cons_append, List.cons_append, List.cons_append,
      List.append_assoc, List.append_assoc] at h
    obtain ⟨rfl, hrest⟩ := text_unique hnumeral x y (hxs x List.mem_cons_self) (hys y List.mem_cons_self) _ _
      (follows_itemsRest xs a) (follows_itemsRest ys b) (List.cons.inj h).2
    obtain ⟨rfl, rfl⟩ := items_unique hnumeral xs ys (fun v hv => hxs v (List.mem_cons_of_mem _ hv))
      (fun v hv => hys v (List.mem_cons_of_mem _ hv)) a b hrest
    exact ⟨rfl, rfl⟩

theorem members_unique (hnumeral : RealNumeral numeral) (ms ns : List (String × Json)) (hms : ∀ m ∈ ms, Loaded m.2)
    (hns : ∀ m ∈ ns, Loaded m.2) (a b : List Char)
    (h : membersRest numeral ms ++ '\x7d' :: a = membersRest numeral ns ++ '\x7d' :: b) :
    ms = ns ∧ a = b := by
  match ms, ns with
  | [], [] => exact ⟨rfl, (List.cons.inj h).2⟩
  | [], n :: ns => exact absurd (List.cons.inj h).1 (by decide)
  | m :: ms, [] => exact absurd (List.cons.inj h).1 (by decide)
  | (key, v) :: ms, (key', w) :: ns =>
    unfold membersRest at h
    simp only [List.flatMap_cons, List.cons_append, List.append_assoc, List.cons.injEq, true_and] at h
    obtain ⟨rfl, hvalue⟩ := readable_quoted key key' _ _ trivial trivial trivial trivial h
    obtain ⟨rfl, hrest⟩ := text_unique hnumeral v w (hms _ List.mem_cons_self) (hns _ List.mem_cons_self) _ _
      (follows_membersRest ms a) (follows_membersRest ns b) (List.cons.inj hvalue).2
    obtain ⟨rfl, rfl⟩ := members_unique hnumeral ms ns (fun v hv => hms v (List.mem_cons_of_mem _ hv))
      (fun v hv => hns v (List.mem_cons_of_mem _ hv)) a b hrest
    exact ⟨rfl, rfl⟩

end

end text

/-! ### The order of the members -/

/-- The values are the same but for the order of the members of their objects. -/
inductive Json.Same : Json → Json → Prop where
  | null : Same .null .null
  | bool (b : Bool) : Same (.bool b) (.bool b)
  | integer (n : ℤ) : Same (.integer n) (.integer n)
  | real (x : Double) : Same (.real x) (.real x)
  | string (s : String) : Same (.string s) (.string s)
  | array (xs ys : List Json) (items : List.Forall₂ Same xs ys) : Same (.array xs) (.array ys)
  | object (ms ns : List (String × Json)) (members : ∀ key, Option.Rel Same (ms.lookup key) (ns.lookup key)) :
      Same (.object ms) (.object ns)

theorem Json.same_object_iff {ms ns : List (String × Json)} :
    (Json.object ms).Same (.object ns) ↔ ∀ key, Option.Rel Json.Same (ms.lookup key) (ns.lookup key) := by
  constructor
  · rintro ⟨⟩
    assumption
  · exact .object ms ns

theorem lookup_eq_some_iff_mem {α : Type} {l : List (String × α)} (hl : (l.map Prod.fst).Nodup) {key : String} {v : α} :
    l.lookup key = some v ↔ (key, v) ∈ l := by
  induction l with
  | nil => exact ⟨fun h => (by cases h), fun h => (by cases h)⟩
  | cons m rest ih =>
    obtain ⟨k, u⟩ := m
    rw [List.map_cons, List.nodup_cons] at hl
    rw [List.lookup_cons, List.mem_cons]
    by_cases hkey : key = k
    · subst hkey
      rw [beq_self_eq_true]
      constructor
      · intro h
        exact .inl (by rw [Option.some.inj h])
      · rintro (h | h)
        · rw [(Prod.mk.inj h).2]
        · exact absurd (List.mem_map_of_mem h) hl.1
    · rw [beq_false_of_ne hkey]
      refine (ih hl.2).trans ⟨.inr, fun h => h.resolve_left fun h => hkey (Prod.mk.inj h).1⟩

theorem lookup_sortMembers (members : List (String × Json)) (key : String) :
    (sortMembers members).lookup key = (members.lookup key).map sortKeys := by
  induction members with
  | nil => rfl
  | cons m rest ih =>
    obtain ⟨k, v⟩ := m
    rw [sortMembers, List.lookup_cons, List.lookup_cons, ih]
    split <;> rfl

theorem keys_sortMembers (members : List (String × Json)) :
    (sortMembers members).map Prod.fst = members.map Prod.fst := by
  rw [sortMembers_eq_map, List.map_map]
  rfl

/-- The members in the order of their keys. -/
def byKeys (members : List (String × Json)) : List (String × Json) :=
  members.insertionSort fun m n => keyBytes m.1 ≤ keyBytes n.1

theorem nodup_byKeys {members : List (String × Json)} (h : (members.map Prod.fst).Nodup) :
    ((byKeys members).map Prod.fst).Nodup :=
  (((List.perm_insertionSort _ members).map Prod.fst).nodup_iff).mpr h

theorem lookup_byKeys {members : List (String × Json)} (h : (members.map Prod.fst).Nodup) (key : String) :
    (byKeys members).lookup key = members.lookup key := by
  ext v
  rw [lookup_eq_some_iff_mem (nodup_byKeys h), lookup_eq_some_iff_mem h]
  exact List.mem_insertionSort _

theorem keyBytes_injective : Function.Injective keyBytes := by
  intro s t h
  unfold keyBytes utf8 at h
  have hbytes := List.map_injective_iff.mpr (fun a b hab => UInt8.toNat_inj.mp hab) h
  exact String.toByteArray_inj.mp (ByteArray.ext (Array.toList_inj.mp hbytes))

/-- Members with the same values have one order. -/
theorem byKeys_eq {ms ns : List (String × Json)} (hms : (ms.map Prod.fst).Nodup) (hns : (ns.map Prod.fst).Nodup)
    (h : ∀ key, ms.lookup key = ns.lookup key) : byKeys ms = byKeys ns := by
  have hperm : ms.Perm ns := by
    refine (List.perm_ext_iff_of_nodup hms.of_map hns.of_map).mpr fun m => ?_
    rw [← lookup_eq_some_iff_mem hms, ← lookup_eq_some_iff_mem hns, h]
  have hsorted : (byKeys ms).Perm (byKeys ns) :=
    ((List.perm_insertionSort _ ms).trans hperm).trans (List.perm_insertionSort _ ns).symm
  have htotal : Std.Total fun m n : String × Json => keyBytes m.1 ≤ keyBytes n.1 := ⟨fun m n => le_total _ _⟩
  have htrans : IsTrans (String × Json) fun m n => keyBytes m.1 ≤ keyBytes n.1 := ⟨fun _ _ _ h h' => h.trans h'⟩
  refine hsorted.eq_of_pairwise ?_ (List.pairwise_insertionSort _ ms) (List.pairwise_insertionSort _ ns)
  intro m n hm hn hle hge
  have hkey := keyBytes_injective (le_antisymm hle hge)
  have hvalue := (lookup_eq_some_iff_mem (nodup_byKeys hms)).mpr hm
  rw [lookup_byKeys hms, h, ← lookup_byKeys hns, hkey, (lookup_eq_some_iff_mem (nodup_byKeys hns)).mpr hn] at hvalue
  exact Prod.ext hkey (Option.some.inj hvalue).symm

theorem loaded_sortKeys {v : Json} (hv : Loaded v) : Loaded (sortKeys v) := by
  induction hv with
  | null => exact .null
  | bool b => exact .bool b
  | integer n => exact .integer n
  | real q exact => exact .real q exact
  | string s => exact .string s
  | array items _ ih =>
    rw [sortKeys, sortItems_eq_map]
    refine .array _ fun v hv => ?_
    obtain ⟨w, hw, rfl⟩ := List.mem_map.mp hv
    exact ih w hw
  | object members keys _ ih =>
    rw [sortKeys]
    refine .object _ (nodup_byKeys ((keys_sortMembers members).symm ▸ keys)) fun m hm => ?_
    replace hm := (List.mem_insertionSort _).mp hm
    rw [sortMembers_eq_map] at hm
    obtain ⟨n, hn, rfl⟩ := List.mem_map.mp hm
    exact ih n hn

theorem forall₂_congr_mem {α β : Type} {R S : α → β → Prop} {xs : List α} {ys : List β}
    (h : ∀ x ∈ xs, ∀ y ∈ ys, R x y ↔ S x y) : xs.Forall₂ R ys ↔ xs.Forall₂ S ys := by
  induction xs generalizing ys with
  | nil => rw [List.forall₂_nil_left_iff, List.forall₂_nil_left_iff]
  | cons x xs ih =>
    rw [List.forall₂_cons_left_iff, List.forall₂_cons_left_iff]
    refine exists_congr fun y => exists_congr fun ys' => ?_
    constructor
    · rintro ⟨hhead, htail, rfl⟩
      exact ⟨(h x List.mem_cons_self y List.mem_cons_self).mp hhead,
        (ih fun x hx y hy => h x (List.mem_cons_of_mem _ hx) y (List.mem_cons_of_mem _ hy)).mp htail, rfl⟩
    · rintro ⟨hhead, htail, rfl⟩
      exact ⟨(h x List.mem_cons_self y List.mem_cons_self).mpr hhead,
        (ih fun x hx y hy => h x (List.mem_cons_of_mem _ hx) y (List.mem_cons_of_mem _ hy)).mpr htail, rfl⟩

/-- A value that holds no other is the same as itself only. -/
theorem sortKeys_eq_iff_of_scalar {v w : Json} (harray : kindOfValue v ≠ .array) (hobject : kindOfValue v ≠ .object) :
    sortKeys v = sortKeys w ↔ v.Same w := by
  have hkept : sortKeys v = v := by
    cases v with
    | array => exact absurd rfl harray
    | object => exact absurd rfl hobject
    | _ => rw [sortKeys]
  rw [hkept]
  constructor
  · intro h
    cases w with
    | array => exact absurd (by rw [h, sortKeys]; rfl) harray
    | object => exact absurd (by rw [h, sortKeys]; rfl) hobject
    | null => exact h ▸ .null
    | bool b => exact h ▸ .bool b
    | integer n => exact h ▸ .integer n
    | real x => exact h ▸ .real x
    | string s => exact h ▸ .string s
  · intro h
    cases h with
    | array => exact absurd rfl harray
    | object => exact absurd rfl hobject
    | _ => rw [sortKeys]

/-- Sorted, two values are equal just when they are the same. -/
theorem sortKeys_eq_iff {v w : Json} (hv : Loaded v) (hw : Loaded w) : sortKeys v = sortKeys w ↔ v.Same w := by
  induction hv generalizing w with
  | array xs _ ih =>
    have hitems : ∀ ys : List Json, (∀ y ∈ ys, Loaded y) →
        (xs.map sortKeys = ys.map sortKeys ↔ xs.Forall₂ Json.Same ys) := by
      intro ys hys
      rw [← List.forall₂_eq_eq_eq, List.forall₂_map_left_iff, List.forall₂_map_right_iff]
      exact forall₂_congr_mem fun x hx y hy => ih x hx (hys y hy)
    constructor
    · intro h
      cases hw with
      | array ys hys =>
        rw [sortKeys, sortKeys, sortItems_eq_map, sortItems_eq_map] at h
        exact .array xs ys ((hitems ys hys).mp (Json.array.inj h))
      | _ => simp only [sortKeys, reduceCtorEq] at h
    · intro h
      cases h with
      | array _ ys hsame =>
        cases hw with
        | array _ hys => rw [sortKeys, sortKeys, sortItems_eq_map, sortItems_eq_map, (hitems ys hys).mpr hsame]
  | object ms hms _ ih =>
    have hmembers : ∀ ns : List (String × Json), (∀ n ∈ ns, Loaded n.2) → (ns.map Prod.fst).Nodup →
        ((∀ key, (ms.lookup key).map sortKeys = (ns.lookup key).map sortKeys) ↔
          ∀ key, Option.Rel Json.Same (ms.lookup key) (ns.lookup key)) := by
      intro ns hns hkeys
      refine forall_congr' fun key => ?_
      rcases hm : ms.lookup key with _ | v <;> rcases hn : ns.lookup key with _ | w
      · exact ⟨fun _ => .none, fun _ => rfl⟩
      · exact ⟨fun h => (by cases h), fun h => (by cases h)⟩
      · exact ⟨fun h => (by cases h), fun h => (by cases h)⟩
      · have hiff := ih (key, v) ((lookup_eq_some_iff_mem hms).mp hm)
          (hns (key, w) ((lookup_eq_some_iff_mem hkeys).mp hn))
        constructor
        · intro h
          exact .some (hiff.mp (Option.some.inj h))
        · rintro ⟨h⟩
          exact congrArg some (hiff.mpr h)
    have hsort : ∀ ns : List (String × Json), (sortMembers ns).map Prod.fst = ns.map Prod.fst := keys_sortMembers
    constructor
    · intro h
      cases hw with
      | object ns hkeys hns =>
        rw [sortKeys, sortKeys, Json.object.injEq] at h
        replace h : byKeys (sortMembers ms) = byKeys (sortMembers ns) := h
        refine .object ms ns ((hmembers ns hns hkeys).mp fun key => ?_)
        have hlookup := congrArg (List.lookup key) h
        rw [lookup_byKeys ((hsort ms).symm ▸ hms), lookup_byKeys ((hsort ns).symm ▸ hkeys), lookup_sortMembers,
          lookup_sortMembers] at hlookup
        exact hlookup
      | _ => simp only [sortKeys, reduceCtorEq] at h
    · intro h
      cases h with
      | object _ ns hsame =>
        cases hw with
        | object _ hkeys hns =>
          rw [sortKeys, sortKeys, Json.object.injEq]
          refine byKeys_eq ((hsort ms).symm ▸ hms) ((hsort ns).symm ▸ hkeys) fun key => ?_
          rw [lookup_sortMembers, lookup_sortMembers]
          exact (hmembers ns hns hkeys).mpr hsame key
  | _ => exact sortKeys_eq_iff_of_scalar TextKind.noConfusion TextKind.noConfusion

/-- Two values have one canonical text just when they are the same but for the order of members. -/
theorem canonicalText_eq_iff {numeral : Double → String} (hnumeral : RealNumeral numeral) {v w : Json} (hv : Loaded v)
    (hw : Loaded w) : canonicalText numeral v = canonicalText numeral w ↔ v.Same w := by
  rw [← sortKeys_eq_iff hv hw]
  constructor
  · intro h
    have htext : text numeral (sortKeys v) ++ [] = text numeral (sortKeys w) ++ [] := by
      rw [List.append_nil, List.append_nil]
      exact congrArg String.toList h
    have hend : Follows [] := fun c hc => (by cases hc)
    exact (text_unique hnumeral _ _ (loaded_sortKeys hv) (loaded_sortKeys hw) [] [] hend hend htext).1
  · intro h
    unfold canonicalText
    rw [h]

end RackMcp
