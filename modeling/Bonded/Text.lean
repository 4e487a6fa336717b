import Bonded.JsonText

/-! Texts without the blanks around them, texts cut into lines, and the bytes of a text around
characters of seven bits: such a character is one byte, and no other character has that byte
among its own. -/
namespace Bonded.Text

open JsonText

section Ends

variable {blank : Char → Bool} {l : List Char}

/-- A text without the blanks at its two ends. -/
def strip (blank : Char → Bool) (text : List Char) : List Char :=
  ((text.dropWhile blank).reverse.dropWhile blank).reverse

theorem dropWhile_self (h : ∀ c, l.head? = some c → blank c = false) : l.dropWhile blank = l := by
  cases l with
  | nil => rfl
  | cons c l => simp [h c rfl]

theorem reverse_dropWhile_self (h : ∀ c, l.getLast? = some c → blank c = false) :
    l.reverse.dropWhile blank = l.reverse := by
  refine dropWhile_self fun c hc => h c ?_
  rwa [List.head?_reverse] at hc

/-- A text with no blanks at its two ends is not changed. -/
theorem strip_self (hhead : ∀ c, l.head? = some c → blank c = false)
    (hlast : ∀ c, l.getLast? = some c → blank c = false) : strip blank l = l := by
  rw [strip,dropWhile_self hhead,reverse_dropWhile_self hlast,List.reverse_reverse]

theorem head_dropWhile {c : Char} (h : (l.dropWhile blank).head? = some c) : blank c = false := by
  have hnot := List.head?_dropWhile_not blank l
  rwa [h] at hnot

theorem head_strip {c : Char} (h : (strip blank l).head? = some c) : blank c = false := by
  -- the second pass leaves the first character alone
  obtain ⟨blanks,hblanks⟩ := List.dropWhile_suffix (l := (l.dropWhile blank).reverse) blank
  refine head_dropWhile (l := l) ?_
  rw [← List.reverse_reverse (l.dropWhile blank),← hblanks,List.reverse_append,
    List.head?_append,show ((l.dropWhile blank).reverse.dropWhile blank).reverse.head? = _ from h]
  rfl

theorem last_strip {c : Char} (h : (strip blank l).getLast? = some c) : blank c = false := by
  rw [strip,List.getLast?_reverse] at h
  exact head_dropWhile h

theorem strip_strip : strip blank (strip blank l) = strip blank l :=
  strip_self (fun _ hc => head_strip hc) (fun _ hc => last_strip hc)

theorem strip_blank_after {b : Char} (h : blank b = true) :
    strip blank (strip blank l++[b]) = strip blank l := by
  have hrev := reverse_dropWhile_self fun c => (last_strip : (strip blank l).getLast? = some c → _)
  have hhead := fun c => (head_strip : (strip blank l).head? = some c → _)
  generalize strip blank l = t at hrev hhead
  cases t with
  | nil => simp [strip,h]
  | cons c cs =>
    have hc : blank c = false := hhead c rfl
    rw [strip,List.cons_append,List.dropWhile_cons_of_neg (by simp [hc]),← List.cons_append,
      List.reverse_append,List.reverse_singleton,List.singleton_append,
      List.dropWhile_cons_of_pos h,hrev,List.reverse_reverse]

end Ends

section Lines

def stripReturn (line : List Char) : List Char :=
  if line.getLast? = some '\r' then line.dropLast else line

/-- The lines of a text of which `line` has been read; a last line that is not ended is kept as
it is. -/
def linesFrom : List Char → List Char → List (List Char)
  | line, [] => if line = [] then [] else [line]
  | line, c::cs => if c = '\n' then stripReturn line::linesFrom [] cs else linesFrom (line++[c]) cs

def lines (text : List Char) : List (List Char) := linesFrom [] text

theorem stripReturn_append (line : List Char) : stripReturn (line++['\r']) = line := by
  simp [stripReturn]

theorem linesFrom_newline (line a b : List Char) :
    linesFrom line (a++ '\n'::b) = linesFrom line (a++['\n'])++lines b := by
  induction a generalizing line with
  | nil => simp [linesFrom,lines]
  | cons c a ih =>
    simp only [List.cons_append,linesFrom]
    split
    · rw [ih,List.cons_append]
    · exact ih _

theorem linesFrom_ended (line a : List Char) :
    ∃ k, linesFrom line (a++['\r','\n']) = linesFrom line a++List.replicate k [] := by
  induction a generalizing line with
  | nil =>
    have hline : linesFrom line ['\r','\n'] = [line] := by
      simp [linesFrom,stripReturn_append]
    rw [List.nil_append,hline,linesFrom]
    split
    · next hempty => exact ⟨1,by rw [hempty]; rfl⟩
    · exact ⟨0,rfl⟩
  | cons c a ih =>
    simp only [List.cons_append,linesFrom]
    split
    · obtain ⟨k,hk⟩ := ih []
      exact ⟨k,by rw [hk,List.cons_append]⟩
    · exact ih _

theorem linesFrom_head (line a b : List Char) :
    (linesFrom line (a++ '\r':: '\n'::b)).head?.getD [] = (linesFrom line a).head?.getD [] := by
  induction a generalizing line with
  | nil =>
    by_cases hempty : line = [] <;> simp [linesFrom,hempty,stripReturn]
  | cons c a ih =>
    simp only [List.cons_append,linesFrom]
    split
    · rfl
    · exact ih _

theorem lines_blank_line (a b : List Char) :
    ∃ k, lines (a++ '\r':: '\n':: '\r':: '\n'::b) = lines a++List.replicate k []++lines b := by
  obtain ⟨k,hk⟩ := linesFrom_ended [] (a++['\r','\n'])
  obtain ⟨j,hj⟩ := linesFrom_ended [] a
  refine ⟨j+k,?_⟩
  have hsplit := linesFrom_newline [] (a++['\r','\n','\r']) b
  simp only [List.append_assoc,List.cons_append,List.nil_append] at hsplit hk
  show linesFrom [] _ = linesFrom [] a++_++_
  simp only [hsplit,hk,hj,List.replicate_add,List.append_assoc]

theorem linesFrom_line {l : List Char} (h : '\n' ∉ l) (line rest : List Char) :
    linesFrom line (l++ '\r':: '\n'::rest) = (line++l)::lines rest := by
  induction l generalizing line with
  | nil => simp [linesFrom,stripReturn_append,lines]
  | cons c l ih =>
    simp only [List.mem_cons,not_or] at h
    rw [List.cons_append,linesFrom,if_neg (Ne.symm h.1),ih h.2]
    simp

theorem lines_line {l : List Char} (h : '\n' ∉ l) (rest : List Char) :
    lines (l++ '\r':: '\n'::rest) = l::lines rest := linesFrom_line h [] rest

theorem linesFrom_last {l : List Char} (h : '\n' ∉ l) (line : List Char) :
    linesFrom line l = if line++l = [] then [] else [line++l] := by
  induction l generalizing line with
  | nil => simp [linesFrom]
  | cons c l ih =>
    simp only [List.mem_cons,not_or] at h
    rw [linesFrom,if_neg (Ne.symm h.1),ih h.2]
    simp

end Lines

section Encoding

def encode (cs : List Char) : List UInt8 := cs.flatMap String.utf8EncodeChar

@[simp] theorem encode_nil : encode [] = [] := rfl

theorem encode_cons (c : Char) (cs : List Char) :
    encode (c::cs) = String.utf8EncodeChar c++encode cs := rfl

@[simp] theorem encode_append (a b : List Char) : encode (a++b) = encode a++encode b :=
  List.flatMap_append

theorem utf8_eq_encode (s : String) : utf8 s = encode s.toList := by
  rw [← String.ofList_toList (s := s),utf8,toList_eq_data,String.toUTF8_eq_toByteArray,
    String.toByteArray_ofList,List.utf8Encode,List.toList_data_toByteArray,String.toList_ofList]
  rfl

theorem encodeChar_ascii {c : Char} (h : c.toNat < 128) :
    String.utf8EncodeChar c = [UInt8.ofNat c.toNat] := by
  have hv : c.val.toNat ≤ 127 := Nat.le_of_lt_succ h
  simp only [String.utf8EncodeChar,hv,if_true]
  rfl

theorem encodeChar_high {c : Char} (h : ¬ c.toNat < 128) :
    ∀ b ∈ String.utf8EncodeChar c, 128 ≤ b.toNat := by
  have hv : ¬ c.val.toNat ≤ 127 := fun hle => h (Nat.lt_succ_of_le hle)
  simp only [String.utf8EncodeChar,hv,if_false]
  intro b hb
  split at hb
  · simp only [List.mem_cons,List.not_mem_nil,or_false] at hb
    rcases hb with rfl | rfl <;> simp only [UInt8.toNat_ofNat'] <;> omega
  · split at hb
    · simp only [List.mem_cons,List.not_mem_nil,or_false] at hb
      rcases hb with rfl | rfl | rfl <;> simp only [UInt8.toNat_ofNat'] <;> omega
    · simp only [List.mem_cons,List.not_mem_nil,or_false] at hb
      rcases hb with rfl | rfl | rfl | rfl <;> simp only [UInt8.toNat_ofNat'] <;> omega

theorem encodeChar_ne_nil (c : Char) : String.utf8EncodeChar c ≠ [] := by
  intro h
  have hlength := String.length_utf8EncodeChar c
  have hpos := Char.utf8Size_pos c
  rw [h] at hlength
  simp only [List.length_nil] at hlength
  omega

theorem encode_isPrefix {sep : List Char} (hsep : ∀ c ∈ sep, c.toNat < 128) (cs : List Char) :
    encode sep <+: encode cs ↔ sep <+: cs := by
  induction sep generalizing cs with
  | nil => simp
  | cons a sep ih =>
    obtain ⟨ha,hsep⟩ := List.forall_mem_cons.mp hsep
    rw [encode_cons,encodeChar_ascii ha]
    cases cs with
    | nil => simp
    | cons c cs =>
      rw [encode_cons,List.cons_prefix_cons]
      by_cases hc : c.toNat < 128
      · rw [encodeChar_ascii hc,List.singleton_append,List.singleton_append,
          List.cons_prefix_cons,ih hsep]
        have hbyte : UInt8.ofNat a.toNat = UInt8.ofNat c.toNat ↔ a = c := by
          constructor
          · intro h
            have hnat := congrArg UInt8.toNat h
            simp only [UInt8.toNat_ofNat'] at hnat
            refine Char.ext (UInt32.toNat_inj.mp ?_)
            have hval : a.toNat = c.toNat := by omega
            exact hval
          · rintro rfl
            rfl
        rw [hbyte]
      · constructor
        · intro h
          exfalso
          cases hbytes : String.utf8EncodeChar c with
          | nil => exact encodeChar_ne_nil c hbytes
          | cons b bs =>
            rw [hbytes,List.singleton_append,List.cons_append,List.cons_prefix_cons] at h
            have hhigh := encodeChar_high hc b (by simp [hbytes])
            rw [← h.1,UInt8.toNat_ofNat'] at hhigh
            omega
        · rintro ⟨rfl,-⟩
          exact absurd ha hc

end Encoding

end Bonded.Text
