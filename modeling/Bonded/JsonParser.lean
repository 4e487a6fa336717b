import Mathlib.Algebra.Group.Nat.Defs
import Mathlib.Data.List.Basic

/-! A parser for JSON texts: objects, arrays, strings with every escape, numbers and literals, with
white space between the tokens. A control character inside a string is refused. -/
namespace Bonded.JsonParser

/-- A JSON value; a number is given by its decimal mantissa and exponent. -/
inductive Json
  | null
  | bool (b : Bool)
  | number (mantissa exponent : ℤ)
  | string (s : String)
  | array (elements : List Json)
  | object (members : List (String × Json))

section Parser

def isBlank (c : Char) : Bool := c = ' ' ∨ c.toNat = 9 ∨ c.toNat = 10 ∨ c.toNat = 13

def skipBlanks (cs : List Char) : List Char := cs.dropWhile isBlank

def hexValue (c : Char) : Option ℕ :=
  if c.isDigit then some (c.toNat-48)
  else if 97 ≤ c.toNat ∧ c.toNat ≤ 102 then some (c.toNat-87)
  else if 65 ≤ c.toNat ∧ c.toNat ≤ 70 then some (c.toNat-55)
  else none

def hex4 : List Char → Option (ℕ × List Char)
  | a::b::c::d::rest =>
    match hexValue a, hexValue b, hexValue c, hexValue d with
    | some a, some b, some c, some d => some (((a*16+b)*16+c)*16+d,rest)
    | _, _, _, _ => none
  | _ => none

/-- The character of an escape by its code, in two halves beyond the first plane. -/
def unicode (cs : List Char) : Option (Char × List Char) :=
  match hex4 cs with
  | none => none
  | some (n,rest) =>
    if n < 0xd800 ∨ 0xe000 ≤ n then some (Char.ofNat n,rest)
    else if n < 0xdc00 then
      match rest with
      | '\\':: 'u'::rest =>
        match hex4 rest with
        | none => none
        | some (m,rest) =>
          if 0xdc00 ≤ m ∧ m < 0xe000 then
            some (Char.ofNat (0x10000+(n-0xd800)*0x400+(m-0xdc00)),rest)
          else none
      | _ => none
    else none

def escaped : List Char → Option (Char × List Char)
  | [] => none
  | c::rest =>
    if c = '"' ∨ c = '\\' ∨ c = '/' then some (c,rest)
    else if c = 'b' then some (Char.ofNat 8,rest)
    else if c = 'f' then some (Char.ofNat 12,rest)
    else if c = 'n' then some ('\n',rest)
    else if c = 'r' then some ('\r',rest)
    else if c = 't' then some ('\t',rest)
    else if c = 'u' then unicode rest
    else none

def nextChar : List Char → Option (Char × List Char)
  | [] => none
  | c::rest =>
    if c = '\\' then escaped rest
    else if c.toNat < 32 then none
    else some (c,rest)

/-- The characters of a string up to its closing quote. -/
def parseChars : ℕ → List Char → Option (List Char × List Char)
  | 0, _ => none
  | fuel+1, cs =>
    if cs.head? = some '"' then some ([],cs.tail)
    else
      match nextChar cs with
      | none => none
      | some (c,rest) => (parseChars fuel rest).map fun r => (c::r.1,r.2)

def parseString (cs : List Char) : Option (String × List Char) :=
  (parseChars (cs.length+1) cs).map fun r => (String.ofList r.1,r.2)

def digitsValue (ds : List Char) : ℕ := Nat.ofDigitChars 10 ds 0

/-- The digits behind a decimal point, if there is one. -/
def parseFraction (cs : List Char) : Option (List Char × List Char) :=
  match cs with
  | '.'::rest =>
    let ds := rest.takeWhile Char.isDigit
    if ds = [] then none else some (ds,rest.dropWhile Char.isDigit)
  | _ => some ([],cs)

def parseExponent (cs : List Char) : Option (ℤ × List Char) :=
  if cs.head? = some 'e' ∨ cs.head? = some 'E' then
    let (negative,rest) := match cs.tail with
      | '-'::rest => (true,rest)
      | '+'::rest => (false,rest)
      | rest => (false,rest)
    let ds := rest.takeWhile Char.isDigit
    if ds = [] then none
    else
      let n : ℤ := digitsValue ds
      some (if negative then -n else n,rest.dropWhile Char.isDigit)
  else some (0,cs)

/-- A number; it has no leading zeros. -/
def parseNumber (cs : List Char) : Option (Json × List Char) :=
  let negative := cs.head? = some '-'
  let cs := if negative then cs.tail else cs
  let whole := cs.takeWhile Char.isDigit
  if whole = [] ∨ (whole.head? = some '0' ∧ 1 < whole.length) then none
  else
    match parseFraction (cs.dropWhile Char.isDigit) with
    | none => none
    | some (fraction,rest) =>
      match parseExponent rest with
      | none => none
      | some (exponent,rest) =>
        let n : ℤ := digitsValue (whole++fraction)
        some (.number (if negative then -n else n) (exponent-fraction.length),rest)

def parseLiteral (cs : List Char) : Option (Json × List Char) :=
  if ['n','u','l','l'].isPrefixOf cs then some (.null,cs.drop 4)
  else if ['t','r','u','e'].isPrefixOf cs then some (.bool true,cs.drop 4)
  else if ['f','a','l','s','e'].isPrefixOf cs then some (.bool false,cs.drop 5)
  else none

mutual

def parseValue : ℕ → List Char → Option (Json × List Char)
  | 0, _ => none
  | fuel+1, cs =>
    match skipBlanks cs with
    | [] => none
    | c::rest =>
      if c = '"' then (parseString rest).map fun r => (.string r.1,r.2)
      else if c = '\x7b' then
        if (skipBlanks rest).head? = some '\x7d' then some (.object [],(skipBlanks rest).tail)
        else (parseMembers fuel rest).map fun r => (.object r.1,r.2)
      else if c = '[' then
        if (skipBlanks rest).head? = some ']' then some (.array [],(skipBlanks rest).tail)
        else (parseElements fuel rest).map fun r => (.array r.1,r.2)
      else if c = '-' ∨ c.isDigit then parseNumber (c::rest)
      else parseLiteral (c::rest)

/-- The members of an object up to its closing brace; there is at least one. -/
def parseMembers : ℕ → List Char → Option (List (String × Json) × List Char)
  | 0, _ => none
  | fuel+1, cs =>
    match skipBlanks cs with
    | [] => none
    | c::rest =>
      if c = '"' then
        match parseString rest with
        | none => none
        | some (key,rest) =>
          match skipBlanks rest with
          | [] => none
          | c::rest =>
            if c = ':' then
              match parseValue fuel rest with
              | none => none
              | some (value,rest) =>
                match skipBlanks rest with
                | [] => none
                | c::rest =>
                  if c = ',' then
                    (parseMembers fuel rest).map fun r => ((key,value)::r.1,r.2)
                  else if c = '\x7d' then some ([(key,value)],rest)
                  else none
            else none
      else none

def parseElements : ℕ → List Char → Option (List Json × List Char)
  | 0, _ => none
  | fuel+1, cs =>
    match parseValue fuel cs with
    | none => none
    | some (value,rest) =>
      match skipBlanks rest with
      | [] => none
      | c::rest =>
        if c = ',' then (parseElements fuel rest).map fun r => (value::r.1,r.2)
        else if c = ']' then some ([value],rest)
        else none

end

/-- A text is one value with white space around it. Every level of nesting takes two characters,
so that the length of the text bounds the recursion. -/
def parse (text : String) : Option Json :=
  match parseValue (text.toList.length+1) text.toList with
  | none => none
  | some (value,rest) => if skipBlanks rest = [] then some value else none

end Parser

section Strings

variable {c : Char} {cs : List Char} {fuel : ℕ}

theorem parseChars_step {rest : List Char} (hne : cs.head? ≠ some '"')
    (h : nextChar cs = some (c,rest)) :
    parseChars (fuel+1) cs = (parseChars fuel rest).map fun r => (c::r.1,r.2) := by
  simp only [parseChars,if_neg hne,h]

theorem parseChars_refused (hne : cs.head? ≠ some '"') (h : nextChar cs = none) :
    parseChars (fuel+1) cs = none := by
  simp only [parseChars,if_neg hne,h]

theorem nextChar_plain (hslash : c ≠ '\\') (hcontrol : 32 ≤ c.toNat) (rest : List Char) :
    nextChar (c::rest) = some (c,rest) := by
  simp only [nextChar,if_neg hslash,if_neg (Nat.not_lt.mpr hcontrol)]

theorem nextChar_control (hcontrol : c.toNat < 32) (rest : List Char) :
    nextChar (c::rest) = none := by
  have hslash : c ≠ '\\' := by
    rintro rfl
    exact absurd hcontrol (by decide)
  simp only [nextChar,if_neg hslash,if_pos hcontrol]

/-- A character is written as `text`: it is read back, or refused, whatever follows. -/
def Written (text : List Char) (c : Option Char) : Prop :=
  ∀ rest, (text++rest).head? ≠ some '"' ∧ nextChar (text++rest) = c.map fun c => (c,rest)

/-- A string is read back exactly if none of its characters is refused. -/
theorem parseChars_written {write : Char → List Char} {good : Char → Bool}
    (h : ∀ c ∈ cs, Written (write c) (if good c then some c else none)) (rest : List Char)
    (hfuel : cs.length < fuel) : parseChars fuel (cs.flatMap write++ '"'::rest) =
      if cs.all good then some (cs,rest) else none := by
  induction cs generalizing fuel with
  | nil =>
    obtain ⟨fuel,rfl⟩ := Nat.exists_eq_add_of_lt hfuel
    rfl
  | cons c cs ih =>
    obtain ⟨fuel,rfl⟩ : ∃ n, fuel = n+1 := ⟨fuel-1,by omega⟩
    obtain ⟨hquote,hnext⟩ := h c List.mem_cons_self (cs.flatMap write++ '"'::rest)
    have hlater := ih (fun d hd => h d (List.mem_cons_of_mem c hd)) (Nat.lt_of_succ_lt_succ hfuel)
    rw [List.flatMap_cons,List.append_assoc]
    cases hgood : good c with
    | false =>
      rw [hgood] at hnext
      rw [parseChars_refused hquote hnext]
      simp [hgood]
    | true =>
      rw [hgood] at hnext
      rw [parseChars_step hquote hnext,hlater]
      by_cases hall : cs.all good = true
      · simp [hall,hgood]
      · simp [hall,hgood]

theorem length_le_flatMap {write : Char → List Char} (h : ∀ c ∈ cs, write c ≠ []) :
    cs.length ≤ (cs.flatMap write).length := by
  induction cs with
  | nil => exact Nat.zero_le _
  | cons c cs ih =>
    have hc := List.length_pos_of_ne_nil (h c List.mem_cons_self)
    have hcs := ih fun d hd => h d (List.mem_cons_of_mem c hd)
    rw [List.flatMap_cons,List.length_append,List.length_cons]
    omega

theorem parseString_written (write : Char → List Char) (good : Char → Bool) {s : String}
    (h : ∀ c ∈ s.toList, write c ≠ [] ∧ Written (write c) (if good c then some c else none))
    (rest : List Char) :
    parseString (s.toList.flatMap write++ '"'::rest) =
      if s.toList.all good then some (s,rest) else none := by
  have hlength := length_le_flatMap fun c hc => (h c hc).1
  have hfuel : s.toList.length < (s.toList.flatMap write++ '"'::rest).length+1 := by
    rw [List.length_append]
    omega
  rw [parseString,parseChars_written (fun c hc => (h c hc).2) rest hfuel]
  by_cases hall : s.toList.all good = true
  · simp [hall]
  · simp [hall]

/-- A name of characters that stand for themselves. -/
def Plain (s : String) : Prop := ∀ c ∈ s.toList, c ≠ '"' ∧ c ≠ '\\' ∧ 32 ≤ c.toNat

theorem parseString_plain {s : String} (h : Plain s) (rest : List Char) :
    parseString (s.toList++ '"'::rest) = some (s,rest) := by
  have hread := parseString_written (fun c => [c]) (fun _ => true) (s := s)
    (fun c hc => ⟨List.cons_ne_nil c [],fun rest =>
      ⟨fun hquote => (h c hc).1 (Option.some.inj hquote),
        nextChar_plain (h c hc).2.1 (h c hc).2.2 rest⟩⟩) rest
  simpa using hread

end Strings

section Numbers

theorem takeWhile_isDigit (ds rest : List Char) (hds : ∀ d ∈ ds, d.isDigit = true)
    (hrest : ∀ c, rest.head? = some c → c.isDigit = false) :
    (ds++rest).takeWhile Char.isDigit = ds ∧ (ds++rest).dropWhile Char.isDigit = rest := by
  rw [List.takeWhile_append_of_pos hds,List.dropWhile_append_of_pos hds]
  cases rest with
  | nil => simp
  | cons c rest => simp [hrest c rfl]

/-- A number that is not zero does not begin with a zero. -/
theorem head_toDigits {n : ℕ} (h : n ≠ 0) : (Nat.toDigits 10 n).head? ≠ some '0' := by
  induction n using Nat.strongRecOn with
  | _ n ih =>
    by_cases hlt : n < 10
    · have hsmall : ∀ m < 10, m ≠ 0 → [Nat.digitChar m].head? ≠ some '0' := by decide
      rw [Nat.toDigits_of_lt_base hlt]
      exact hsmall n hlt h
    · have hdiv : n/10 ≠ 0 := by omega
      have hsplit := Nat.toDigits_append_toDigits (b := 10) (n := n/10) (d := n%10)
        (by decide) (Nat.pos_of_ne_zero hdiv) (Nat.mod_lt n (by decide))
      rw [Nat.div_add_mod] at hsplit
      rw [← hsplit,List.head?_append]
      have hfirst := ih (n/10) (by omega) hdiv
      cases hhead : (Nat.toDigits 10 (n/10)).head? with
      | none => exact absurd (List.head?_eq_none_iff.mp hhead) Nat.toDigits_ne_nil
      | some c =>
        rw [hhead] at hfirst
        exact hfirst

theorem isDigit_toDigits {n : ℕ} : ∀ d ∈ Nat.toDigits 10 n, d.isDigit = true :=
  fun _ hd => Nat.isDigit_of_mem_toDigits (by decide) (by decide) hd

/-- What may stand behind a number: nothing that could belong to it. -/
def Ends (rest : List Char) : Prop :=
  ∀ c, rest.head? = some c → c.isDigit = false ∧ c ≠ '.' ∧ c ≠ 'e' ∧ c ≠ 'E'

theorem parseFraction_ends {rest : List Char} (h : Ends rest) :
    parseFraction rest = some ([],rest) := by
  unfold parseFraction
  split
  · next r =>
    exact absurd rfl (h '.' rfl).2.1
  · rfl

theorem parseExponent_ends {rest : List Char} (h : Ends rest) :
    parseExponent rest = some (0,rest) := by
  have hnot : ¬ (rest.head? = some 'e' ∨ rest.head? = some 'E') := by
    rintro (hc | hc)
    · exact (h _ hc).2.2.1 rfl
    · exact (h _ hc).2.2.2 rfl
  rw [parseExponent,if_neg hnot]

theorem head_toDigits_append (n : ℕ) (rest : List Char) :
    ∃ d ds, Nat.toDigits 10 n = d::ds ∧ Nat.toDigits 10 n++rest = d::(ds++rest) ∧
      d.isDigit = true := by
  cases hdigits : Nat.toDigits 10 n with
  | nil => exact absurd hdigits Nat.toDigits_ne_nil
  | cons d ds => exact ⟨d,ds,rfl,rfl,isDigit_toDigits d (by rw [hdigits]; exact List.mem_cons_self)⟩

theorem parseNumber_toDigits (n : ℕ) {rest : List Char} (h : Ends rest) :
    parseNumber (Nat.toDigits 10 n++rest) = some (.number n 0,rest) := by
  obtain ⟨d,ds,hdigits,happend,hd⟩ := head_toDigits_append n rest
  have hsign : ¬ (Nat.toDigits 10 n++rest).head? = some '-' := by
    rw [happend,List.head?_cons,Option.some.injEq]
    rintro rfl
    cases hd
  obtain ⟨htake,hdrop⟩ := takeWhile_isDigit (Nat.toDigits 10 n) rest isDigit_toDigits
    fun c hc => (h c hc).1
  have hwhole : ¬ (Nat.toDigits 10 n = [] ∨
      ((Nat.toDigits 10 n).head? = some '0' ∧ 1 < (Nat.toDigits 10 n).length)) := by
    rintro (hnil | ⟨hzero,hlong⟩)
    · exact Nat.toDigits_ne_nil hnil
    · by_cases hn : n = 0
      · subst hn
        exact absurd hlong (by decide)
      · exact head_toDigits hn hzero
  simp only [parseNumber,hsign,if_false,htake,hdrop,
    if_neg hwhole,parseFraction_ends h,parseExponent_ends h,List.append_nil]
  simp [digitsValue,Nat.ofDigitChars_toDigits]

end Numbers

section Objects

/-- A text is read as a value, or refused, whatever follows that cannot belong to it. -/
def Gives (text : List Char) (value : Option Json) : Prop :=
  ∀ fuel rest, Ends rest → parseValue (fuel+1) (text++rest) = value.map fun v => (v,rest)

theorem skipBlanks_cons {c : Char} (h : isBlank c = false) (cs : List Char) :
    skipBlanks (c::cs) = c::cs := by
  simp [skipBlanks,h]

theorem gives_string {write : Char → List Char} {good : Char → Bool} {s : String}
    (h : ∀ c ∈ s.toList, write c ≠ [] ∧ Written (write c) (if good c then some c else none)) :
    Gives ('"'::(s.toList.flatMap write++['"']))
      (if s.toList.all good then some (.string s) else none) := by
  intro fuel rest _
  have hread := parseString_written write good h rest
  have htext : '"'::(s.toList.flatMap write++['"'])++rest =
      '"'::(s.toList.flatMap write++ '"'::rest) := by simp
  rw [htext,parseValue,skipBlanks_cons (by decide)]
  simp only [if_true,hread]
  split <;> rfl

theorem gives_number (n : ℕ) : Gives (Nat.toDigits 10 n) (some (.number n 0)) := by
  intro fuel rest hrest
  obtain ⟨d,ds,-,happend,hd⟩ := head_toDigits_append n rest
  have hread := parseNumber_toDigits n hrest
  have hne : ∀ c : Char, c.isDigit = false → d ≠ c := by
    rintro c hc rfl
    rw [hd] at hc
    cases hc
  have hcode : ∀ code, (Char.ofNat code).isDigit = false → d.toNat ≠ code := by
    rintro code hc rfl
    exact hne _ hc (Char.ofNat_toNat d).symm
  have hblank : isBlank d = false := by
    simp [isBlank,hne ' ' rfl,hcode 9 rfl,hcode 10 rfl,hcode 13 rfl]
  rw [happend] at hread ⊢
  rw [parseValue,skipBlanks_cons hblank]
  simp only [hne '"' rfl,hne '\x7b' rfl,hne '[' rfl,if_false,hd,or_true,if_true]
  exact hread

theorem gives_null : Gives ['n','u','l','l'] (some .null) := by
  intro fuel rest _
  rfl

/-- A member of an object, whose value is written as `text`. -/
structure Member where
  key : String
  text : List Char
  value : Option Json

def Member.print (m : Member) : List Char := '"'::(m.key.toList++ '"':: ':'::m.text)

def printMembers : List Member → List Char
  | [] => []
  | [m] => m.print++['\x7d']
  | m::ms => m.print++ ','::printMembers ms

/-- The members, if none of their values is refused. -/
def valuesOf : List Member → Option (List (String × Json))
  | [] => some []
  | m::ms =>
    match m.value, valuesOf ms with
    | some v, some vs => some ((m.key,v)::vs)
    | _, _ => none

variable {m : Member} {ms : List Member} {n : ℕ}

theorem valuesOf_none (h : m.value = none) (ms : List Member) : valuesOf (m::ms) = none := by
  simp only [valuesOf,h]

theorem valuesOf_some {v : Json} (h : m.value = some v) (ms : List Member) :
    valuesOf (m::ms) = (valuesOf ms).map fun vs => (m.key,v)::vs := by
  simp only [valuesOf,h]
  cases valuesOf ms <;> rfl

theorem valuesOf_refused (hm : m ∈ ms) (h : m.value = none) : valuesOf ms = none := by
  induction ms with
  | nil => cases hm
  | cons x ms ih =>
    cases hvalue : x.value with
    | none => exact valuesOf_none hvalue ms
    | some v =>
      rcases List.mem_cons.mp hm with rfl | hm
      · rw [h] at hvalue
        cases hvalue
      · rw [valuesOf_some hvalue,ih hm]
        rfl

/-- A member with a name that stands for itself is well written if its value is. -/
def Member.Sound (m : Member) : Prop := Plain m.key ∧ Gives m.text m.value

/-- As `Gives`, for a text whose levels of nesting need some recursion. -/
def GivesFrom (n : ℕ) (text : List Char) (value : Option Json) : Prop :=
  ∀ fuel rest, n ≤ fuel → Ends rest → parseValue (fuel+1) (text++rest) = value.map fun v => (v,rest)

theorem Gives.from {text : List Char} {value : Option Json} (h : Gives text value) (n : ℕ) :
    GivesFrom n text value := fun fuel rest _ hends => h fuel rest hends

def Member.SoundFrom (n : ℕ) (m : Member) : Prop := Plain m.key ∧ GivesFrom n m.text m.value

theorem Member.Sound.from (h : m.Sound) (n : ℕ) : m.SoundFrom n := ⟨h.1,h.2.from n⟩

theorem parseMembers_member (h : m.SoundFrom n) {fuel : ℕ} (hfuel : n ≤ fuel) {c : Char}
    (rest : List Char) (hends : Ends (c::rest)) (hblank : isBlank c = false) :
    parseMembers (fuel+2) (m.print++c::rest) =
      match m.value with
      | none => none
      | some value =>
        if c = ',' then (parseMembers (fuel+1) rest).map fun r => ((m.key,value)::r.1,r.2)
        else if c = '\x7d' then some ([(m.key,value)],rest)
        else none := by
  have hprint : m.print++c::rest =
      '"'::(m.key.toList++ '"'::(':'::(m.text++c::rest))) := by simp [Member.print]
  have hkey := parseString_plain h.1 (':'::(m.text++c::rest))
  have hvalue := h.2 fuel (c::rest) hfuel hends
  rw [hprint,parseMembers,skipBlanks_cons (by decide)]
  simp only [if_true,hkey]
  rw [skipBlanks_cons (by decide)]
  simp only [if_true,hvalue]
  cases m.value with
  | none => rfl
  | some value =>
    simp only [Option.map_some]
    rw [skipBlanks_cons hblank]

theorem ends_comma (rest : List Char) : Ends (','::rest) := by
  intro c hc
  cases hc
  decide

theorem ends_brace (rest : List Char) : Ends ('\x7d'::rest) := by
  intro c hc
  cases hc
  decide

/-- The members of an object are read exactly if none of their values is refused. -/
theorem parseMembers_print (hms : ∀ m ∈ ms, m.SoundFrom n) (hne : ms ≠ []) (rest : List Char)
    {fuel : ℕ} (hfuel : n+ms.length < fuel) :
    parseMembers fuel (printMembers ms++rest) = (valuesOf ms).map fun vs => (vs,rest) := by
  induction ms generalizing fuel with
  | nil => exact absurd rfl hne
  | cons m ms ih =>
    rw [List.length_cons] at hfuel
    obtain ⟨fuel,rfl⟩ : ∃ k, fuel = k+2 := ⟨fuel-2,by omega⟩
    have hm := hms m List.mem_cons_self
    have hdeep : n ≤ fuel := by omega
    cases ms with
    | nil =>
      have htext : printMembers [m]++rest = m.print++ '\x7d'::rest := by
        simp [printMembers]
      rw [htext,parseMembers_member hm hdeep rest (ends_brace rest) (by decide)]
      cases hvalue : m.value <;> simp [valuesOf,hvalue]
    | cons m' ms =>
      have htext : printMembers (m::m'::ms)++rest =
          m.print++ ','::(printMembers (m'::ms)++rest) := by
        simp [printMembers]
      have hlength : n+(m'::ms).length < fuel+1 := by omega
      have hlater := ih (fun x hx => hms x (List.mem_cons_of_mem m hx)) (List.cons_ne_nil m' ms)
        hlength
      rw [htext,parseMembers_member hm hdeep _ (ends_comma _) (by decide)]
      cases hvalue : m.value with
      | none =>
        rw [valuesOf_none hvalue]
        rfl
      | some value =>
        simp only [if_true,hlater,valuesOf_some hvalue,Option.map_map]
        rfl

theorem length_printMembers (ms : List Member) : ms.length ≤ (printMembers ms).length := by
  induction ms with
  | nil => exact Nat.zero_le _
  | cons m ms ih =>
    cases ms with
    | nil => simp [printMembers]
    | cons m' ms =>
      simp only [printMembers,List.length_append,List.length_cons] at ih ⊢
      omega

theorem printMembers_head (hne : ms ≠ []) : ∃ rest, printMembers ms = '"'::rest := by
  cases ms with
  | nil => exact absurd rfl hne
  | cons m ms =>
    cases ms with
    | nil => exact ⟨_,rfl⟩
    | cons m' ms => exact ⟨_,rfl⟩

theorem gives_object (hms : ∀ m ∈ ms, m.SoundFrom n) (hne : ms ≠ []) :
    GivesFrom (n+ms.length+1) ('\x7b'::printMembers ms) ((valuesOf ms).map Json.object) := by
  intro fuel rest hfuel _
  have hmembers := parseMembers_print hms hne rest (Nat.lt_of_succ_le hfuel)
  obtain ⟨more,hhead⟩ := printMembers_head hne
  have hopen : (skipBlanks (printMembers ms++rest)).head? ≠ some '\x7d' := by
    rw [hhead,List.cons_append,skipBlanks_cons (by decide),List.head?_cons]
    decide
  rw [List.cons_append,parseValue,skipBlanks_cons (by decide)]
  simp only [if_neg hopen,if_true,hmembers]
  cases valuesOf ms <;> rfl

theorem parse_of_gives {text : String} {value : Option Json} (h : GivesFrom n text.toList value)
    (hn : n ≤ text.toList.length) : parse text = value := by
  have hvalue := h text.toList.length [] hn nofun
  rw [List.append_nil] at hvalue
  rw [parse,hvalue]
  cases value <;> rfl

/-- An object is read exactly if none of the values of its members is refused. -/
theorem parse_object (hms : ∀ m ∈ ms, m.Sound) (hne : ms ≠ []) {text : String}
    (htext : text.toList = '\x7b'::printMembers ms) :
    parse text = (valuesOf ms).map Json.object := by
  have hlength := length_printMembers ms
  refine parse_of_gives (htext ▸ gives_object (fun m hm => (hms m hm).from 0) hne) ?_
  rw [htext,List.length_cons]
  omega

end Objects

end Bonded.JsonParser
