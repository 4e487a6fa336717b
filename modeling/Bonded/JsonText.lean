import Mathlib.Data.Fintype.Basic
import Mathlib.Tactic.FinCases

/-! The text of a flat JSON object, with the standard escapes of its strings, and its bytes.
An object is determined by its text: no choice of strings makes two objects print alike. -/
namespace Bonded.JsonText

/-- A character inside a string. Quotes, backslashes and control characters are escaped. -/
def escape (c : Char) : List Char :=
  if c = '"' then ['\\','"']
  else if c = '\\' then ['\\','\\']
  else if c.toNat = 8 then ['\\','b']
  else if c.toNat = 9 then ['\\','t']
  else if c.toNat = 10 then ['\\','n']
  else if c.toNat = 12 then ['\\','f']
  else if c.toNat = 13 then ['\\','r']
  else if c.toNat < 32 then
    ['\\','u','0','0',Nat.digitChar (c.toNat/16),Nat.digitChar (c.toNat%16)]
  else [c]

def quoted (s : String) : List Char := '"'::(s.toList.flatMap escape++['"'])

inductive Value
  | text (s : String)
  | number (n : ℕ)
  deriving DecidableEq, Repr

def Value.print : Value → List Char
  | .text s => quoted s
  | .number n => Nat.toDigits 10 n

def member (m : String × Value) : List Char := quoted m.1++ ':'::m.2.print

def further : List (String × Value) → List Char
  | [] => ['}']
  | m::ms => ','::(member m++further ms)

def object : List (String × Value) → List Char
  | [] => ['{','}']
  | m::ms => '{'::(member m++further ms)

def utf8 (s : String) : List UInt8 := s.toUTF8.toList

def toVec (ms : List (String × Value)) : List UInt8 := utf8 (String.ofList (object ms))

section Strings

theorem control_cases {c : Char} (h : c.toNat < 32) : ∃ n : Fin 32, c = Char.ofNat n :=
  ⟨⟨c.toNat,h⟩,(Char.ofNat_toNat c).symm⟩

def unescape : List Char → Option (Char × List Char)
  | '\\':: '"'::r => some ('"',r)
  | '\\':: '\\'::r => some ('\\',r)
  | '\\':: 'b'::r => some (Char.ofNat 8,r)
  | '\\':: 't'::r => some (Char.ofNat 9,r)
  | '\\':: 'n'::r => some (Char.ofNat 10,r)
  | '\\':: 'f'::r => some (Char.ofNat 12,r)
  | '\\':: 'r'::r => some (Char.ofNat 13,r)
  | '\\':: 'u'::_::_::a::b::r =>
    let digit (d : Char) := if d.toNat < 58 then d.toNat-48 else d.toNat-87
    some (Char.ofNat (16*digit a+digit b),r)
  | c::r => some (c,r)
  | [] => none

theorem unescape_plain {c : Char} (h : c ≠ '\\') (r : List Char) :
    unescape (c::r) = some (c,r) := by
  unfold unescape
  split <;> simp_all

theorem unescape_escape (c : Char) (r : List Char) : unescape (escape c++r) = some (c,r) := by
  by_cases hquote : c = '"'
  · subst hquote; rfl
  by_cases hslash : c = '\\'
  · subst hslash; rfl
  by_cases hcontrol : c.toNat < 32
  · obtain ⟨n,rfl⟩ := control_cases hcontrol
    fin_cases n <;> rfl
  · have hplain : escape c = [c] := by
      unfold escape
      rw [if_neg hquote,if_neg hslash,if_neg (by omega),if_neg (by omega),if_neg (by omega),
        if_neg (by omega),if_neg (by omega),if_neg hcontrol]
    rw [hplain]
    exact unescape_plain hslash r

theorem escape_cancel {c d : Char} {x y : List Char} (h : escape c++x = escape d++y) :
    c = d ∧ x = y := by
  have hread := congrArg unescape h
  simpa [unescape_escape] using hread

theorem escape_ne_quote (c : Char) (x y : List Char) : escape c++x ≠ '"'::y := by
  intro h
  have hread := congrArg unescape h
  rw [unescape_escape,unescape_plain (by decide)] at hread
  simp only [Option.some.injEq,Prod.mk.injEq] at hread
  rw [hread.1] at h
  simp [escape] at h

theorem escaped_cancel {s t x y : List Char}
    (h : s.flatMap escape++ '"'::x = t.flatMap escape++ '"'::y) : s = t ∧ x = y := by
  induction s generalizing t with
  | nil =>
    cases t with
    | nil => simpa using h
    | cons d t =>
      rw [List.flatMap_cons,List.append_assoc] at h
      exact absurd h.symm (escape_ne_quote d _ _)
  | cons c s ih =>
    cases t with
    | nil =>
      rw [List.flatMap_cons,List.append_assoc] at h
      exact absurd h (escape_ne_quote c _ _)
    | cons d t =>
      rw [List.flatMap_cons,List.flatMap_cons,List.append_assoc,List.append_assoc] at h
      obtain ⟨rfl,hrest⟩ := escape_cancel h
      obtain ⟨rfl,hxy⟩ := ih hrest
      exact ⟨rfl,hxy⟩

/-- A quoted string ends where it ends, whatever follows. -/
theorem quoted_cancel {s t : String} {x y : List Char} (h : quoted s++x = quoted t++y) :
    s = t ∧ x = y := by
  simp only [quoted,List.cons_append,List.append_assoc,List.nil_append,List.cons.injEq,
    true_and] at h
  obtain ⟨hst,hxy⟩ := escaped_cancel h
  exact ⟨String.toList_inj.mp hst,hxy⟩

end Strings

section Objects

/-- The text does not go on with a digit. -/
def Ended (x : List Char) : Prop := ∀ c, x.head? = some c → c.isDigit = false

theorem further_ended (ms : List (String × Value)) : Ended (further ms) := by
  intro c hc
  cases ms with
  | nil => cases hc; rfl
  | cons m ms => cases hc; rfl

theorem takeWhile_digits {n : ℕ} {x : List Char} (hx : Ended x) :
    (Nat.toDigits 10 n++x).takeWhile Char.isDigit = Nat.toDigits 10 n := by
  have hall : ∀ c ∈ Nat.toDigits 10 n, Char.isDigit c = true :=
    fun c hc => Nat.isDigit_of_mem_toDigits (by decide) (by decide) hc
  rw [List.takeWhile_append_of_pos hall]
  cases x with
  | nil => simp
  | cons c x => simp [hx c rfl]

theorem toDigits_injective {m n : ℕ} (h : Nat.toDigits 10 m = Nat.toDigits 10 n) : m = n := by
  have hread := congrArg (fun ds => Nat.ofDigitChars 10 ds 0) h
  simpa [Nat.ofDigitChars_toDigits] using hread

theorem number_cancel {m n : ℕ} {x y : List Char} (hx : Ended x) (hy : Ended y)
    (h : Nat.toDigits 10 m++x = Nat.toDigits 10 n++y) : m = n ∧ x = y := by
  have hdigits : Nat.toDigits 10 m = Nat.toDigits 10 n := by
    rw [← takeWhile_digits hx,h,takeWhile_digits hy]
  refine ⟨toDigits_injective hdigits,?_⟩
  rw [hdigits] at h
  exact List.append_cancel_left h

/-- A number does not begin like a string. -/
theorem number_ne_quoted (n : ℕ) (s : String) (x y : List Char) :
    Nat.toDigits 10 n++x ≠ quoted s++y := by
  intro h
  cases hdigits : Nat.toDigits 10 n with
  | nil => exact absurd hdigits Nat.toDigits_ne_nil
  | cons d ds =>
    rw [hdigits] at h
    simp only [quoted,List.cons_append,List.cons.injEq] at h
    have hd := Nat.isDigit_of_mem_toDigits (n := n) (by decide) (le_refl 10)
      (by rw [hdigits]; exact List.mem_cons_self)
    rw [h.1] at hd
    cases hd

theorem print_cancel {v w : Value} {x y : List Char} (hx : Ended x) (hy : Ended y)
    (h : v.print++x = w.print++y) : v = w ∧ x = y := by
  cases v with
  | text s =>
    cases w with
    | text t =>
      obtain ⟨rfl,hxy⟩ := quoted_cancel h
      exact ⟨rfl,hxy⟩
    | number n => exact absurd h.symm (number_ne_quoted n s y x)
  | number m =>
    cases w with
    | text t => exact absurd h (number_ne_quoted m t x y)
    | number n =>
      obtain ⟨rfl,hxy⟩ := number_cancel hx hy h
      exact ⟨rfl,hxy⟩

theorem member_cancel {m n : String × Value} {x y : List Char} (hx : Ended x) (hy : Ended y)
    (h : member m++x = member n++y) : m = n ∧ x = y := by
  simp only [member,List.append_assoc,List.cons_append] at h
  obtain ⟨hname,hrest⟩ := quoted_cancel h
  simp only [List.cons.injEq,true_and] at hrest
  obtain ⟨hvalue,hxy⟩ := print_cancel hx hy hrest
  exact ⟨Prod.ext hname hvalue,hxy⟩

theorem further_injective {ms ns : List (String × Value)} (h : further ms = further ns) :
    ms = ns := by
  induction ms generalizing ns with
  | nil =>
    cases ns with
    | nil => rfl
    | cons n ns => simp [further] at h
  | cons m ms ih =>
    cases ns with
    | nil => simp [further] at h
    | cons n ns =>
      simp only [further,List.cons.injEq,true_and] at h
      obtain ⟨rfl,hrest⟩ := member_cancel (further_ended ms) (further_ended ns) h
      rw [ih hrest]

theorem member_ne_brace (m : String × Value) (x : List Char) : member m++x ≠ ['}'] := by
  simp [member,quoted]

theorem object_injective {ms ns : List (String × Value)} (h : object ms = object ns) :
    ms = ns := by
  cases ms with
  | nil =>
    cases ns with
    | nil => rfl
    | cons n ns =>
      simp only [object,List.cons.injEq,true_and] at h
      exact absurd h.symm (member_ne_brace n _)
  | cons m ms =>
    cases ns with
    | nil =>
      simp only [object,List.cons.injEq,true_and] at h
      exact absurd h (member_ne_brace m _)
    | cons n ns =>
      simp only [object,List.cons.injEq,true_and] at h
      obtain ⟨rfl,hrest⟩ := member_cancel (further_ended ms) (further_ended ns) h
      rw [further_injective hrest]

end Objects

section Bytes

theorem toList_loop (bs : ByteArray) (i : ℕ) (r : List UInt8) :
    ByteArray.toList.loop bs i r = r.reverse++bs.data.toList.drop i := by
  fun_induction ByteArray.toList.loop bs i r with
  | case1 i r h ih =>
    rw [ih]
    have hi : i < bs.data.toList.length := by simpa using h
    rw [List.drop_eq_getElem_cons hi]
    simp [ByteArray.get!,h]
  | case2 i r h =>
    have hi : bs.data.toList.length ≤ i := by simpa using h
    rw [List.drop_eq_nil_of_le hi,List.append_nil]

theorem toList_eq_data (bs : ByteArray) : bs.toList = bs.data.toList := by
  simp [ByteArray.toList,toList_loop]

theorem utf8_injective {s t : String} (h : utf8 s = utf8 t) : s = t := by
  simp only [utf8,toList_eq_data,String.toUTF8_eq_toByteArray] at h
  have hdata : s.toByteArray.data = t.toByteArray.data := Array.toList_inj.mp h
  exact String.toByteArray_inj.mp (ByteArray.ext hdata)

theorem toVec_injective {ms ns : List (String × Value)} (h : toVec ms = toVec ns) : ms = ns :=
  object_injective (String.ofList_inj.mp (utf8_injective h))

theorem length_le_utf8 (cs : List Char) : cs.length ≤ (utf8 (String.ofList cs)).length := by
  rw [utf8,toList_eq_data,String.toUTF8_eq_toByteArray,String.toByteArray_ofList,List.utf8Encode,
    List.toList_data_toByteArray]
  induction cs with
  | nil => exact Nat.zero_le _
  | cons c cs ih =>
    have hc := Char.utf8Size_pos c
    rw [List.flatMap_cons,List.length_append,String.length_utf8EncodeChar,List.length_cons]
    omega

theorem toVec_ne_utf8 {ms : List (String × Value)} {s : String} (h : s.toList.head? ≠ some '\x7b') :
    toVec ms ≠ utf8 s := by
  intro heq
  have hs := congrArg String.toList (utf8_injective heq)
  rw [String.toList_ofList] at hs
  refine h ?_
  rw [← hs]
  cases ms <;> rfl

end Bytes

end Bonded.JsonText
