/-
Texts that are cut short.

Of an object whose values are strings, no beginning but the whole text is read
as an object: wherever the text is cut, the scanner meets its end within a string
or where something has to follow (`unfinished_scan`). Who reads the tree as a
record meets that end as well (`exists_error_of_unfinished`).
-/
import TaskSwarm.Proofs.Document.Record
import TaskSwarm.Proofs.Json.Scanner

set_option autoImplicit false

namespace TaskSwarm

/-- The beginning of two texts in a row ends within the first, or after it. -/
theorem prefix_append_cases {α : Type} {p as bs : List α} (h : p <+: as ++ bs) :
    (p <+: as ∧ p.length < as.length) ∨ ∃ q, p = as ++ q ∧ q <+: bs := by
  rcases List.prefix_or_prefix_of_prefix h (List.prefix_append as bs) with hp | has
  · by_cases hlt : p.length < as.length
    · exact Or.inl ⟨hp, hlt⟩
    · have heq : p = as := hp.eq_of_length_le (Nat.not_lt.1 hlt)
      exact Or.inr ⟨[], by simp [heq], List.nil_prefix⟩
  · obtain ⟨q, rfl⟩ := has
    exact Or.inr ⟨q, rfl, (List.prefix_append_right_inj as).1 h⟩

namespace Json

/-! ## Strings -/

theorem exists_error_of_scanHex {cs : List Char} (h : cs.length < 4) :
    ∃ e, scanHex cs = .error e := by
  unfold scanHex
  split
  · simp at h
    omega
  · split <;> exact ⟨_, rfl⟩

/-- An escape is cut after nothing, after its backslash, or among its digits. -/
theorem cut_escapeChar {c : Char} {p : List Char} (hp : p <+: escapeChar c)
    (hlt : p.length < (escapeChar c).length) :
    p = [] ∨ p = ['\\'] ∨ ∃ r, p = '\\' :: 'u' :: r ∧ r.length < 4 := by
  have hshort : ∀ d, p <+: ['\\', d] → p.length < 2 → p = [] ∨ p = ['\\'] := by
    intro d hp hlt
    rcases List.prefix_cons_iff.1 hp with rfl | ⟨q, rfl, hq⟩
    · exact Or.inl rfl
    · rw [List.length_cons] at hlt
      have hnil : q = [] := List.length_eq_zero_iff.1 (by omega)
      exact Or.inr (by rw [hnil])
  revert hp hlt
  unfold escapeChar
  split
  case h_8 =>
    split
    · intro hp hlt
      have hdigits : (Text.hexDigits 4 c.toNat).length = 4 := by simp [Text.hexDigits]
      rcases List.prefix_cons_iff.1 hp with rfl | ⟨q, rfl, hq⟩
      · exact Or.inl rfl
      · rcases List.prefix_cons_iff.1 hq with rfl | ⟨r, rfl, hr⟩
        · exact Or.inr (Or.inl rfl)
        · refine Or.inr (Or.inr ⟨r, rfl, ?_⟩)
          simp only [List.length_cons, List.length_append, List.length_nil, hdigits] at hlt
          omega
    · intro hp hlt
      rw [List.length_singleton] at hlt
      exact Or.inl (List.length_eq_zero_iff.1 (by omega))
  all_goals exact fun hp hlt => (hshort _ hp hlt).imp_right Or.inl

theorem broken_of_cut (acc : String) (fuel : Nat) {p : List Char}
    (hp : p = [] ∨ p = ['\\'] ∨ ∃ r, p = '\\' :: 'u' :: r ∧ r.length < 4) :
    (scanString acc none fuel p).1.broken.isSome = true := by
  cases fuel with
  | zero => rcases hp with rfl | rfl | ⟨r, rfl, -⟩ <;> rfl
  | succ fuel =>
    rcases hp with rfl | rfl | ⟨r, rfl, hr⟩
    · rfl
    · rfl
    · obtain ⟨e, he⟩ := exists_error_of_scanHex hr
      simp [scanString, he]

/-- A string that is cut before its closing quotation mark is broken. -/
theorem broken_of_start {cs p : List Char} (hp : p <+: cs.flatMap escapeChar) (acc : String)
    (fuel : Nat) : (scanString acc none fuel p).1.broken.isSome = true := by
  induction cs generalizing p acc fuel with
  | nil =>
    rw [List.flatMap_nil, List.prefix_nil] at hp
    exact broken_of_cut acc fuel (Or.inl hp)
  | cons c cs ih =>
    rw [List.flatMap_cons] at hp
    rcases prefix_append_cases hp with ⟨hcut, hlt⟩ | ⟨q, rfl, hq⟩
    · exact broken_of_cut acc fuel (cut_escapeChar hcut hlt)
    · cases fuel with
      | zero => rfl
      | succ fuel =>
        rw [scanString_escapeChar]
        exact ih hq _ fuel

/-- The beginning of a string after its quotation mark is broken, or the string with something after it. -/
theorem scanString_prefix {s : String} {p rest : List Char}
    (hp : p <+: s.toList.flatMap escapeChar ++ '"' :: rest) :
    (scanString "" none (p.length + 1) p).1.broken.isSome = true ∨
      ∃ q, q <+: rest ∧ scanString "" none (p.length + 1) p = (.plain s, q) := by
  rcases prefix_append_cases hp with ⟨hcut, -⟩ | ⟨q, rfl, hq⟩
  · exact Or.inl (broken_of_start hcut _ _)
  · rcases List.prefix_cons_iff.1 hq with rfl | ⟨r, rfl, hr⟩
    · rw [List.append_nil]
      exact Or.inl (broken_of_start (List.prefix_refl _) _ _)
    · exact Or.inr ⟨r, hr, scanString_stringChars s r⟩

/-! ## Objects -/

/-- A tree that is no value yet: nothing, or an object without its brace. -/
def Unfinished : Document → Prop
  | .missing _ => True
  | .obj _ closing => closing ≠ .closed
  | _ => False

theorem unfinished_obj {ms : List (Literal × Document)} {closing : Closing} (h : closing ≠ .closed) :
    Unfinished (.obj ms closing) := h

/-- Members whose values are strings. -/
def texts (ms : List (String × String)) : List (String × Json) := ms.map fun m => (m.1, .str m.2)

theorem skipSpace_nil : skipSpace [] = [] := rfl

/-- The beginning of a string is a tree after which nothing can be read, or the string with something
after it. -/
theorem scanValue_prefix {s : String} {p rest : List Char} (hp : p <+: (Json.str s).chars ++ rest)
    (fuel : Nat) : halts (scanValue fuel p).1 = true ∨
      ∃ q, q <+: rest ∧ scanValue fuel p = (.str (.plain s), q) := by
  cases fuel with
  | zero => exact Or.inl rfl
  | succ fuel =>
    rw [chars, stringChars, List.cons_append, List.cons_append, List.append_assoc,
      List.singleton_append] at hp
    rcases List.prefix_cons_iff.1 hp with rfl | ⟨t, rfl, ht⟩
    · exact Or.inl rfl
    · have hquote : skipSpace ('"' :: t) = '"' :: t := skipSpace_cons rfl
      rcases scanString_prefix ht with hbroken | ⟨q, hq, hscan⟩
      · refine Or.inl ?_
        simp only [scanValue, hquote]
        exact hbroken
      · refine Or.inr ⟨q, hq, ?_⟩
        simp only [scanValue, hquote, hscan]

/-- The beginning of a member is not finished, or it is the member with something after it. -/
theorem scanMember_prefix {k v : String} {p more : List Char}
    (hp : p <+: stringChars k ++ ':' :: ((Json.str v).chars ++ more)) (fuel : Nat)
    (acc : List (Literal × Document)) :
    Unfinished (scanMembers (fuel + 1) acc p).1 ∨
      ∃ t q r, p = '"' :: t ∧ scanString "" none (t.length + 1) t = (.plain k, ':' :: q) ∧
        scanValue fuel q = (.str (.plain v), r) ∧ r <+: more := by
  rw [stringChars, List.cons_append, List.cons_append, List.append_assoc,
    List.singleton_append] at hp
  rcases List.prefix_cons_iff.1 hp with rfl | ⟨t, rfl, hname⟩
  · exact Or.inl (unfinished_obj (by decide))
  rcases scanString_prefix hname with hbroken | ⟨q, hq, hscan⟩
  · -- Within the name.
    refine Or.inl ?_
    simp only [scanMembers, hbroken, if_true]
    exact unfinished_obj (by decide)
  rcases List.prefix_cons_iff.1 hq with rfl | ⟨q, rfl, hvalue⟩
  · -- Before the colon.
    refine Or.inl ?_
    simp only [scanMembers, hscan, broken_plain, Option.isSome_none, Bool.false_eq_true,
      if_false, skipSpace_nil]
    exact unfinished_obj (by decide)
  rcases scanValue_prefix hvalue fuel with hhalts | ⟨r, hr, hscanned⟩
  · -- Within the value.
    have hcolon : skipSpace (':' :: q) = ':' :: q := skipSpace_cons rfl
    refine Or.inl ?_
    simp only [scanMembers, hscan, broken_plain, Option.isSome_none, Bool.false_eq_true,
      if_false, hcolon, hhalts, if_true]
    exact unfinished_obj (by decide)
  · exact Or.inr ⟨t, q, r, rfl, hscan, hscanned, hr⟩

/-- A member is followed by nothing, or by a comma and the others. -/
theorem membersChars_texts (m : String × String) (ms : List (String × String)) : ∃ more,
    membersChars (texts (m :: ms)) = stringChars m.1 ++ ':' :: ((Json.str m.2).chars ++ more) ∧
      (more = [] ∨ ms ≠ [] ∧ more = ',' :: membersChars (texts ms)) := by
  cases ms with
  | nil => exact ⟨[], by simp [texts, membersChars], Or.inl rfl⟩
  | cons n ms =>
    exact ⟨',' :: membersChars (texts (n :: ms)), by simp [texts, membersChars],
      Or.inr ⟨List.cons_ne_nil _ _, rfl⟩⟩

/-- What begins like members has ended, or begins with a quotation mark. -/
theorem skipSpace_of_prefix {ms : List (String × String)} (hne : ms ≠ []) {p : List Char}
    (hp : p <+: membersChars (texts ms)) : p = [] ∨ ∃ u, p = '"' :: u ∧ skipSpace p = '"' :: u := by
  obtain ⟨m, rest, rfl⟩ := List.exists_cons_of_ne_nil hne
  obtain ⟨cs, hcs⟩ := exists_membersChars_cons (m.1, .str m.2) (texts rest)
  have hstart : membersChars (texts (m :: rest)) = '"' :: cs := hcs
  rw [hstart] at hp
  rcases List.prefix_cons_iff.1 hp with rfl | ⟨u, rfl, -⟩
  · exact Or.inl rfl
  · exact Or.inr ⟨u, rfl, skipSpace_cons rfl⟩

/-- Wherever the members of an object are cut, they are not closed. -/
theorem unfinished_scanMembers {ms : List (String × String)} (hne : ms ≠ []) {p : List Char}
    (hp : p <+: membersChars (texts ms)) (fuel : Nat) (acc : List (Literal × Document)) :
    Unfinished (scanMembers fuel acc p).1 := by
  induction ms generalizing p fuel acc with
  | nil => exact absurd rfl hne
  | cons m ms ih =>
    obtain ⟨more, hchars, hmore⟩ := membersChars_texts m ms
    cases fuel with
    | zero => exact unfinished_obj (by decide)
    | succ fuel =>
      rw [hchars] at hp
      rcases scanMember_prefix hp fuel acc with hcut | ⟨t, q, r, rfl, hscan, hscanned, hr⟩
      · exact hcut
      have hcolon : skipSpace (':' :: q) = ':' :: q := skipSpace_cons rfl
      have hgoes : halts (.str (.plain m.2)) = false := rfl
      simp only [scanMembers, hscan, broken_plain, Option.isSome_none, Bool.false_eq_true,
        if_false, hcolon, hscanned, hgoes]
      rcases hmore with rfl | ⟨hms, rfl⟩
      · -- After the last value.
        rw [List.prefix_nil] at hr
        subst hr
        exact unfinished_obj (by decide)
      rcases List.prefix_cons_iff.1 hr with rfl | ⟨u, rfl, hu⟩
      · exact unfinished_obj (by decide)
      have hcomma : skipSpace (',' :: u) = ',' :: u := skipSpace_cons rfl
      simp only [hcomma]
      rcases skipSpace_of_prefix hms hu with rfl | ⟨u, rfl, hquote⟩
      · exact unfinished_obj (by decide)
      · simp only [hquote]
        exact ih hms hu fuel _

/-- Wherever an object is cut, it is not finished. -/
theorem unfinished_scan {ms : List (String × String)} (hne : ms ≠ []) {p : List Char}
    (hp : p <+: (Json.obj (texts ms)).chars) (hlt : p.length < (Json.obj (texts ms)).chars.length) :
    Unfinished (scan p).1 := by
  rw [chars, List.cons_append] at hp hlt
  rcases List.prefix_cons_iff.1 hp with rfl | ⟨q, rfl, hq⟩
  · trivial
  have hcut : q <+: membersChars (texts ms) := by
    rcases List.prefix_concat_iff.1 hq with rfl | hcut
    · simp at hlt
    · exact hcut
  have hopen : skipSpace ('\x7b' :: q) = '\x7b' :: q := skipSpace_cons rfl
  have hmembers := unfinished_scanMembers hne hcut ('\x7b' :: q).length []
  simp only [scan, scanValue, hopen]
  rcases skipSpace_of_prefix hne hcut with rfl | ⟨u, rfl, hquote⟩
  · exact unfinished_obj (by decide)
  · simp only [hquote]
    exact hmembers

end Json

/-- A record is not read from an object that is not finished. -/
theorem Fields.exists_error_of_unfinished {β : Type} (fs : Fields β) (name : String) (s : Source)
    {d : Document} (h : Json.Unfinished d) : ∃ e, fs.decode name s d = .error e := by
  cases d with
  | missing cause => exact ⟨_, rfl⟩
  | obj ms closing =>
    cases hdecode : fs.decode name s (.obj ms closing) with
    | error e => exact ⟨e, rfl⟩
    | ok b =>
      obtain ⟨inner, draft, -, -, hclosing, -⟩ := Fields.exists_of_decode_obj hdecode
      cases closing with
      | closed => exact absurd rfl h
      | _ => cases hclosing
  | _ => exact h.elim

end TaskSwarm
