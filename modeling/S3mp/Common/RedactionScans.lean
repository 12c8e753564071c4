import S3mp.Common.Redaction

/-!
# How far the patterns of redaction reach

A pattern stops at a character which is in none of its classes.  The value of
`HEADER_PATTERN` ends at a space, a comma or a semicolon, and a space which does not
stand beside a separator keeps it from going on.
-/

namespace S3mp.Redaction

open Encoding Storage

section

variable {isalnum : Char → Bool} {prev : Option Char} {c l s : Char} {p q r r' t u v w x y : List Char}

/-! ## Characters -/

def spaces : List Char :=
  [9, 10, 11, 12, 13, 28, 29, 30, 31, 32, 0x85, 0xa0, 0x1680, 0x2000, 0x2001, 0x2002, 0x2003, 0x2004,
    0x2005, 0x2006, 0x2007, 0x2008, 0x2009, 0x200a, 0x2028, 0x2029, 0x202f, 0x205f, 0x3000].map
      Char.ofNat

theorem mem_spaces (h : isPySpace c = true) : c ∈ spaces := by
  refine List.mem_map.mpr ⟨c.toNat, ?_, Char.ofNat_toNat c⟩
  simp only [isPySpace, Bool.or_eq_true, Bool.and_eq_true, decide_eq_true_eq, beq_iff_eq] at h
  simp only [List.mem_cons, List.not_mem_nil, or_false]
  omega

/-- A test which every space passes. -/
theorem forall_space (test : Char → Bool) (htest : spaces.all test = true)
    (h : isPySpace c = true) : test c = true :=
  List.all_eq_true.mp htest c (mem_spaces h)

/-- The characters of the names, in any case. -/
def isNameChar (c : Char) : Bool :=
  (names.flatten ++ "bearer".toList).any fun l ↦ c ∈ variants l

theorem space_classes (h : isPySpace c = true) : isNameChar c = false ∧ isToken c = false ∧
    isValue c = false ∧ isSeparator c = false ∧ isSchemeStart c = false ∧ isScheme c = false ∧
    isUser c = false ∧ isUrlPassword c = false ∧ c ≠ ':' ∧ c ≠ '/' ∧ c ≠ '@' := by
  have htest := forall_space (fun c ↦ !isNameChar c && !isToken c && !isValue c &&
    !isSeparator c && !isSchemeStart c && !isScheme c && !isUser c && !isUrlPassword c && c ≠ ':' &&
    c ≠ '/' && c ≠ '@') (by decide +kernel) h
  simpa [and_assoc] using htest

/-! ## Where no match begins -/

theorem not_variant (hc : isSchemeStart c = false) {name : List Char}
    (hname : name ∈ "bearer".toList :: names) : ∀ l ∈ name.head?, c ∉ variants l := by
  have hstart : ("bearer".toList :: names).all (fun name ↦ name.head?.all fun l ↦
      (variants l).all isSchemeStart) = true := by
    decide +kernel
  intro l hl hmem
  have hall := List.all_eq_true.mp hstart name hname
  rw [Option.mem_def.mp hl, Option.all_some, List.all_eq_true] at hall
  rw [hall c hmem] at hc
  cases hc

theorem eat_none {name : List Char} (hne : name ≠ []) (h : ∀ l ∈ name.head?, c ∉ variants l) :
    eat name (c :: t) = none := by
  cases name with
  | nil => exact absurd rfl hne
  | cons l name => exact if_neg (h l rfl)

theorem names_ne_nil {name : List Char} (h : name ∈ names) : name ≠ [] := by
  have hall : names.all (fun name ↦ name ≠ []) = true := by decide +kernel
  simpa using List.all_eq_true.mp hall name h

/-- A name starts with a letter; what is not one starts no match. -/
theorem matchers_none (isalnum : Char → Bool) (hc : isSchemeStart c = false) (prev : Option Char)
    (t : List Char) : bearer isalnum prev (c :: t) = none ∧ header isalnum prev (c :: t) = none ∧
      urlPassword prev (c :: t) = none := by
  refine ⟨?_, ?_, ?_⟩
  · have heat : eat "bearer".toList (c :: t) = none :=
      eat_none (by decide) (not_variant hc List.mem_cons_self)
    unfold bearer bearerTail
    rw [heat]
    exact ite_self _
  · have hfind : names.findSome? (headerNamed (c :: t)) = none := by
      refine List.findSome?_eq_none_iff.mpr fun name hname ↦ ?_
      rw [headerNamed, eat_none (names_ne_nil hname) (not_variant hc (List.mem_cons_of_mem _ hname))]
      rfl
    unfold header
    rw [hfind]
    exact ite_self _
  · have hone : one isSchemeStart (c :: t) = none := if_neg (by simp [hc])
    unfold urlPassword urlScheme
    rw [hone]
    rfl

/-! ## Where a match ends -/

theorem decides_eat {name front : List Char} {follows : List Char → Prop}
    (h : ∀ r, follows r → ∀ c ∈ r.head?, ∀ l ∈ name, c ∉ variants l) :
    Decides (eat name) front follows := by
  induction name generalizing front with
  | nil => exact .yes front List.suffix_rfl fun r _ ↦ rfl
  | cons l name ih =>
      cases front with
      | nil =>
          refine .no fun r hr ↦ ?_
          cases r with
          | nil => rfl
          | cons c r => exact if_neg (h _ hr c rfl l List.mem_cons_self)
      | cons d front =>
          by_cases hd : d ∈ variants l
          · cases ih fun r hr c hc k hk ↦ h r hr c hc k (List.mem_cons_of_mem l hk) with
            | no hno => exact .no fun r hr ↦ (if_pos hd).trans (hno r hr)
            | yes q hq hyes =>
                exact .yes q (hq.trans (List.suffix_cons d front)) fun r hr ↦
                  (if_pos hd).trans (hyes r hr)
          · exact .no fun r _ ↦ if_neg hd

theorem eat_le {name rest : List Char} (h : eat name t = some rest) : rest.length ≤ t.length := by
  induction name generalizing t with
  | nil => exact le_of_eq (congrArg List.length (Option.some.inj h).symm)
  | cons l name ih =>
      cases t with
      | nil => cases h
      | cons c t =>
          rw [eat] at h
          split at h
          · exact (ih h).trans (Nat.le_succ _)
          · cases h

theorem many_lt {α : Type} {test : α → Bool} {t rest : List α} (h : many test t = some rest) :
    rest.length < t.length := by
  unfold many at h
  split at h
  · rename_i hhead
    obtain rfl := Option.some.inj h
    cases t with
    | nil => cases hhead
    | cons c t =>
        rw [List.dropWhile_cons, if_pos (by simpa using hhead)]
        exact Nat.lt_succ_of_le (List.length_dropWhile_le test t)
  · cases h

theorem one_lt {α : Type} {test : α → Bool} {t rest : List α} (h : one test t = some rest) :
    rest.length < t.length := by
  cases t with
  | nil => cases h
  | cons c t =>
      rw [one] at h
      split at h
      · obtain rfl := Option.some.inj h
        exact Nat.lt_succ_self _
      · cases h

theorem bearerTail_lt {rest : List Char} (h : bearerTail t = some rest) : rest.length < t.length := by
  obtain ⟨t₂, h₂, h₃⟩ := Option.bind_eq_some_iff.mp h
  obtain ⟨t₁, h₁, h₂⟩ := Option.bind_eq_some_iff.mp h₂
  exact (many_lt h₃).trans ((many_lt h₂).trans_le (eat_le h₁))

theorem headerTail_lt {rest : List Char} (h : headerTail t = some rest) : rest.length < t.length := by
  obtain ⟨t₁, h₁, h₂⟩ := Option.bind_eq_some_iff.mp h
  have hone := one_lt h₁
  have h₁' := List.length_dropWhile_le isPySpace t
  have h₂' := List.length_dropWhile_le isPySpace t₁
  have h₃ := many_lt h₂
  omega

/-- Behind the front comes no character of the pattern. -/
theorem within_bearer {front : List Char} {follows : List Char → Prop}
    (h : Decides bearerTail front follows) (hfront : front ≠ []) (hr : follows r)
    (hr' : follows r') (prev : Option Char) :
    Within front r r' (bearer isalnum prev (front ++ r)) (bearer isalnum prev (front ++ r')) := by
  unfold bearer boundary
  rw [List.head?_append_of_ne_nil front hfront, List.head?_append_of_ne_nil front hfront]
  split
  · cases h with
    | no h =>
        rw [h r hr, h r' hr']
        exact .none
    | yes q hq h =>
        have hlt := bearerTail_lt (h r hr)
        rw [h r hr, h r' hr']
        refine .some _ q ?_
        rw [List.length_append, List.length_append] at hlt
        omega
  · exact .none

/-- The parts of `HEADER_PATTERN` decide within the front. -/
structure HeaderDecides (front : List Char) (follows : List Char → Prop) : Prop where
  eat : ∀ name ∈ names, Decides (eat name) front follows
  tail : ∀ q, q <:+ front → Decides headerTail q follows

theorem take_front {front q : List Char} (hq : q <:+ front) (r : List Char) :
    (front ++ r).take ((front ++ r).length - (q ++ r).length) =
      front.take (front.length - q.length) := by
  have hle := hq.length_le
  have hlength : (front ++ r).length - (q ++ r).length = front.length - q.length := by
    rw [List.length_append, List.length_append]
    omega
  rw [hlength, List.take_append_of_le_length (Nat.sub_le _ _)]

theorem within_header {front : List Char} {follows : List Char → Prop}
    (h : HeaderDecides front follows) (hfront : front ≠ []) (hr : follows r) (hr' : follows r')
    (prev : Option Char) :
    Within front r r' (header isalnum prev (front ++ r)) (header isalnum prev (front ++ r')) := by
  have hnamed : ∀ name ∈ names, Within front r r' (headerNamed (front ++ r) name)
      (headerNamed (front ++ r') name) := by
    intro name hname
    unfold headerNamed
    cases h.eat name hname with
    | no h =>
        rw [h r hr, h r' hr']
        exact .none
    | yes q hq heat =>
        rw [heat r hr, heat r' hr', Option.bind_some, Option.bind_some, take_front hq, take_front hq]
        cases h.tail q hq with
        | no h =>
            rw [h r hr, h r' hr']
            exact .none
        | yes q' hq' htail =>
            have hlt := headerTail_lt (htail r hr)
            have hle := hq.length_le
            rw [htail r hr, htail r' hr']
            refine .some _ q' ?_
            rw [List.length_append, List.length_append] at hlt
            omega
  unfold header boundary
  rw [List.head?_append_of_ne_nil front hfront, List.head?_append_of_ne_nil front hfront]
  split
  · generalize names = ns at hnamed
    clear h
    induction ns with
    | nil => exact .none
    | cons name ns ih =>
        have hfirst := hnamed name List.mem_cons_self
        rw [List.findSome?_cons, List.findSome?_cons]
        generalize headerNamed (front ++ r) name = o, headerNamed (front ++ r') name = o' at hfirst
        cases hfirst with
        | none => exact ih fun k hk ↦ hnamed k (List.mem_cons_of_mem name hk)
        | some text q hq => exact .some text q hq
  · exact .none

theorem not_variant_of_not_nameChar (hc : isNameChar c = false) {name : List Char}
    (hname : name ∈ "bearer".toList :: names) : ∀ l ∈ name, c ∉ variants l := by
  intro l hl hmem
  have hchar : isNameChar c = true := by
    refine List.any_eq_true.mpr ⟨l, ?_, decide_eq_true hmem⟩
    rcases List.mem_cons.mp hname with rfl | hname
    · exact List.mem_append_right _ hl
    · exact List.mem_append_left _ (List.mem_flatten.mpr ⟨name, hname, hl⟩)
  rw [hchar] at hc
  cases hc

/-- `BEARER_PATTERN` stops at a character which is in none of its classes. -/
theorem decides_bearerTail {front : List Char} {follows : List Char → Prop}
    (h : ∀ r, follows r → ∀ c ∈ r.head?, isNameChar c = false ∧ isPySpace c = false ∧
      isToken c = false) : Decides bearerTail front follows := by
  have heat : Decides (eat "bearer".toList) front follows :=
    decides_eat fun r hr c hc ↦ not_variant_of_not_nameChar (h r hr c hc).1 List.mem_cons_self
  refine (heat.bind fun q _ ↦ ?_).bind fun q _ ↦ ?_
  · exact decides_many fun r hr c hc ↦ (h r hr c hc).2.1
  · exact decides_many fun r hr c hc ↦ (h r hr c hc).2.2

/-! ## A space after a character which is no separator -/

/-- Spaces, and behind them a character which is no separator. -/
def Barred (r : List Char) : Prop :=
  ∃ w d t, r = w ++ d :: t ∧ w ≠ [] ∧ (∀ c ∈ w, isPySpace c = true) ∧ isPySpace d = false ∧
    isSeparator d = false

theorem head_spaces (hw : w ≠ []) (hspaces : ∀ c ∈ w, isPySpace c = true) (r : List Char) :
    ∀ c ∈ (w ++ r).head?, isPySpace c = true := by
  cases w with
  | nil => exact absurd rfl hw
  | cons b w =>
      intro c hc
      obtain rfl := Option.some.inj hc
      exact hspaces _ List.mem_cons_self

theorem Barred.head (h : Barred r) : ∀ c ∈ r.head?, isPySpace c = true := by
  obtain ⟨w, d, t, rfl, hw, hspaces, -⟩ := h
  exact head_spaces hw hspaces _

theorem suffix_singleton {front : List Char} (h : q <:+ front ++ [c]) :
    q = [] ∨ ∃ q', q = q' ++ [c] := by
  obtain ⟨z, hz⟩ := h
  rcases List.eq_nil_or_concat q with rfl | ⟨q', d, rfl⟩
  · exact Or.inl rfl
  · rw [List.concat_eq_append, ← List.append_assoc] at hz
    exact Or.inr ⟨q', by rw [List.concat_eq_append, (List.append_inj' hz rfl).2]⟩

theorem headerDecides_barred (hspace : isPySpace c = false) (hseparator : isSeparator c = false)
    (u : List Char) : HeaderDecides (u ++ [c]) Barred where
  eat name hname := decides_eat fun r hr b hb ↦ not_variant_of_not_nameChar
    (space_classes (hr.head b hb)).1 (List.mem_cons_of_mem _ hname)
  tail q hq := by
    have hone : ∀ d t, isSeparator d = false → one isSeparator (d :: t) = none :=
      fun d t hd ↦ if_neg (by simp [hd])
    rcases suffix_singleton hq with rfl | ⟨q, rfl⟩
    · refine .no fun r hr ↦ ?_
      obtain ⟨w, d, t, rfl, -, hw, hd, hd'⟩ := hr
      have hdrop : (w ++ d :: t).dropWhile isPySpace = d :: t := by
        rw [dropWhile_all hw]
        exact dropWhile_head fun c hc ↦ Option.some.inj hc ▸ hd
      rw [List.nil_append, headerTail, hdrop, hone d t hd']
      rfl
    have hdrop : ∀ q r : List Char, (q ++ [c] ++ r).dropWhile isPySpace =
        q.dropWhile isPySpace ++ c :: r := by
      intro q r
      rw [List.append_assoc]
      exact dropWhile_stop hspace q r
    cases hq₁ : q.dropWhile isPySpace with
    | nil =>
        refine .no fun r _ ↦ ?_
        rw [headerTail, hdrop, hq₁, List.nil_append, hone c r hseparator]
        rfl
    | cons e q₂ =>
        by_cases he : isSeparator e = true
        · have htail : ∀ r, headerTail (q ++ [c] ++ r) =
              many isValue (q₂.dropWhile isPySpace ++ [c] ++ r) := by
            intro r
            rw [headerTail, hdrop, hq₁, List.cons_append, one, if_pos he, Option.bind_some,
              dropWhile_stop hspace, List.append_assoc]
            rfl
          have hmany : Decides (many isValue) (q₂.dropWhile isPySpace ++ [c]) Barred :=
            decides_many fun r hr b hb ↦ (space_classes (hr.head b hb)).2.2.1
          have hsuffix : q₂.dropWhile isPySpace <:+ q :=
            (List.dropWhile_suffix _).trans ((List.suffix_cons e q₂).trans
              (hq₁ ▸ List.dropWhile_suffix isPySpace))
          cases hmany with
          | no h => exact .no fun r hr ↦ (htail r).trans (h r hr)
          | yes q' hq' h =>
              obtain ⟨z, rfl⟩ := hsuffix
              refine .yes q' (hq'.trans ⟨z, ?_⟩) fun r hr ↦ (htail r).trans (h r hr)
              rw [List.append_assoc]
        · refine .no fun r _ ↦ ?_
          rw [headerTail, hdrop, hq₁, List.cons_append, hone e _ (by simpa using he)]
          rfl

/-! ## Passwords in addresses -/

/-- What the URL pattern cannot go into. -/
structure UrlStops (r : List Char) : Prop where
  head : ∀ c ∈ r.head?, isSchemeStart c = false ∧ isScheme c = false ∧ c ≠ ':' ∧ c ≠ '/'
  user : ∀ c ∈ (r.dropWhile isUser).head?, c ≠ ':'
  password : ∀ c ∈ (r.dropWhile isUrlPassword).head?, c ≠ '@'

theorem urlStops_space (h : isPySpace c = true) (t : List Char) : UrlStops (c :: t) := by
  obtain ⟨-, -, -, -, hstart, hscheme, huser, hpassword, hcolon, hslash, hat⟩ := space_classes h
  refine ⟨fun d hd ↦ ?_, fun d hd ↦ ?_, fun d hd ↦ ?_⟩
  · obtain rfl := Option.some.inj hd
    exact ⟨hstart, hscheme, hcolon, hslash⟩
  · rw [List.dropWhile_cons, if_neg (by simp [huser])] at hd
    obtain rfl := Option.some.inj hd
    exact hcolon
  · rw [List.dropWhile_cons, if_neg (by simp [hpassword])] at hd
    obtain rfl := Option.some.inj hd
    exact hat

theorem urlStops_bang (t : List Char) : UrlStops ('!' :: '/' :: t) := by
  have huser : ('!' :: '/' :: t).dropWhile isUser = '/' :: t := rfl
  have hpassword : ('!' :: '/' :: t).dropWhile isUrlPassword = '/' :: t := rfl
  refine ⟨fun d hd ↦ ?_, fun d hd ↦ ?_, fun d hd ↦ ?_⟩
  · obtain rfl := Option.some.inj hd
    decide
  · rw [huser] at hd
    obtain rfl := Option.some.inj hd
    decide
  · rw [hpassword] at hd
    obtain rfl := Option.some.inj hd
    decide

theorem decides_urlScheme (front : List Char) : Decides urlScheme front UrlStops := by
  have hscheme : ∀ q, Decides (fun t ↦ one (· = ':') (t.dropWhile isScheme)) q UrlStops := by
    intro q
    have hdrop : Decides (fun t ↦ some (t.dropWhile isScheme)) q UrlStops :=
      decides_dropWhile fun r hr c hc ↦ (hr.head c hc).2.1
    exact hdrop.bind fun q _ ↦ decides_one fun r hr c hc ↦ decide_eq_false (hr.head c hc).2.2.1
  refine (decides_one fun r hr c hc ↦ (hr.head c hc).1).bind fun q _ ↦ ?_
  refine (hscheme q).bind fun q _ ↦ ?_
  refine (decides_one fun r hr c hc ↦ decide_eq_false (hr.head c hc).2.2.2).bind fun q _ ↦ ?_
  refine (decides_one fun r hr c hc ↦ decide_eq_false (hr.head c hc).2.2.2).bind fun q _ ↦ ?_
  exact decides_many_one fun r hr c hc ↦ decide_eq_false (hr.user c hc)

theorem within_urlPassword {front : List Char} (hr : UrlStops r) (hr' : UrlStops r')
    (prev : Option Char) :
    Within front r r' (urlPassword prev (front ++ r)) (urlPassword prev (front ++ r')) := by
  unfold urlPassword
  cases decides_urlScheme front with
  | no h =>
      rw [h r hr, h r' hr']
      exact .none
  | yes q hq h =>
      rw [h r hr, h r' hr', Option.bind_some, Option.bind_some, take_front hq, take_front hq]
      have hpassword : Decides (fun t ↦ (many isUrlPassword t).bind (one (· = '@'))) q UrlStops :=
        decides_many_one fun r hr c hc ↦ decide_eq_false (hr.password c hc)
      cases hpassword with
      | no h' =>
          rw [h' r hr, h' r' hr']
          exact .none
      | yes q' hq' h' =>
          have hlt : (q' ++ r).length < (q ++ r).length := by
            obtain ⟨t, hmany, hone⟩ := Option.bind_eq_some_iff.mp (h' r hr)
            exact (one_lt hone).trans (many_lt hmany)
          have hle := hq.length_le
          rw [h' r hr, h' r' hr']
          refine .some _ q' ?_
          rw [List.length_append, List.length_append] at hlt
          omega

/-! ## A match which goes over a value -/

/-- A value, and what ends it. -/
structure Ended (x s : List Char) : Prop where
  ne_nil : x ≠ []
  value : ∀ c ∈ x, isValue c = true
  ends : ∀ c ∈ s.head?, isValue c = false

/-- A part of the pattern decides within the front, or goes over the value. -/
inductive DecidesOrOver (f : List Char → Option (List Char)) (front : List Char)
    (good : List Char → List Char → Prop) : Prop
  | no (h : ∀ x s, good x s → f (front ++ (x ++ s)) = none) : DecidesOrOver f front good
  | yes (q : List Char) (hq : q <:+ front)
      (h : ∀ x s, good x s → f (front ++ (x ++ s)) = some (q ++ (x ++ s))) :
      DecidesOrOver f front good
  | past (h : ∀ x s, good x s → f (front ++ (x ++ s)) = some s) : DecidesOrOver f front good

theorem many_value {x s : List Char} (h : Ended x s) : many isValue (x ++ s) = some s :=
  many_all h.ne_nil h.value h.ends

theorem decidesOrOver_many (front : List Char) : DecidesOrOver (many isValue) front Ended := by
  by_cases hall : ∀ c ∈ front, isValue c = true
  · refine .past fun x s h ↦ ?_
    obtain ⟨hne, hvalue, hends⟩ := h
    have hended : Ended (front ++ x) s :=
      ⟨List.append_ne_nil_of_right_ne_nil front hne,
        fun c hc ↦ (List.mem_append.mp hc).elim (hall c) (hvalue c), hends⟩
    rw [← List.append_assoc]
    exact many_value hended
  · rcases many_of_not_all hall with hno | ⟨c, v, hsuffix, hyes⟩
    · exact .no fun x s _ ↦ hno _
    · exact .yes (c :: v) hsuffix fun x s _ ↦ hyes _

/-- A value which starts with an exclamation mark: no other part of the pattern goes into it. -/
def Banged (x s : List Char) : Prop :=
  x.head? = some '!' ∧ Ended x s

theorem decidesOrOver_banged (q : List Char) : DecidesOrOver headerTail q Banged := by
  have hspace : isPySpace '!' = false := by decide
  have htail : ∀ x s, Banged x s → headerTail (q ++ (x ++ s)) =
      (one isSeparator (q.dropWhile isPySpace ++ (x ++ s))).bind
        fun t ↦ many isValue (t.dropWhile isPySpace) := by
    rintro x s ⟨hhead, -⟩
    cases x with
    | nil => cases hhead
    | cons c x =>
        obtain rfl := Option.some.inj hhead
        rw [headerTail, List.cons_append, dropWhile_stop hspace]
  cases hq : q.dropWhile isPySpace with
  | nil =>
      refine .no fun x s h ↦ ?_
      rw [htail x s h, hq]
      obtain ⟨hhead, -⟩ := h
      cases x with
      | nil => cases hhead
      | cons c x =>
          obtain rfl := Option.some.inj hhead
          rfl
  | cons e q₂ =>
      have hsuffix : q₂.dropWhile isPySpace <:+ q :=
        (List.dropWhile_suffix _).trans ((List.suffix_cons e q₂).trans
          (hq ▸ List.dropWhile_suffix isPySpace))
      by_cases he : isSeparator e = true
      · have hmany : ∀ x s, Banged x s → headerTail (q ++ (x ++ s)) =
            many isValue (q₂.dropWhile isPySpace ++ (x ++ s)) := by
          intro x s h
          rw [htail x s h, hq, List.cons_append, one, if_pos he, Option.bind_some]
          obtain ⟨hhead, -⟩ := h
          cases x with
          | nil => cases hhead
          | cons c x =>
              obtain rfl := Option.some.inj hhead
              rw [List.cons_append, dropWhile_stop hspace]
        cases decidesOrOver_many (q₂.dropWhile isPySpace) with
        | no h => exact .no fun x s hx ↦ (hmany x s hx).trans (h x s hx.2)
        | yes q' hq' h =>
            exact .yes q' (hq'.trans hsuffix) fun x s hx ↦ (hmany x s hx).trans (h x s hx.2)
        | past h => exact .past fun x s hx ↦ (hmany x s hx).trans (h x s hx.2)
      · refine .no fun x s h ↦ ?_
        rw [htail x s h, hq, List.cons_append, one, if_neg he]
        rfl

theorem isPySpace_of_isValue (h : isValue c = true) : isPySpace c = false := by
  simp only [isValue, Bool.and_eq_true, Bool.not_eq_true'] at h
  exact h.1.1

theorem separator_classes (h : isSeparator c = true) : isPySpace c = false ∧ isNameChar c = false ∧
    isSchemeStart c = false ∧ c ≠ ']' := by
  simp only [isSeparator, Bool.or_eq_true, decide_eq_true_eq] at h
  rcases h with rfl | rfl
  · decide +kernel
  · decide +kernel

/-- A separator and spaces before the value. -/
theorem decidesOrOver_separated (hs : isSeparator s = true) (hw : ∀ c ∈ w, isPySpace c = true)
    (q : List Char) : DecidesOrOver headerTail (q ++ s :: w) Ended := by
  obtain ⟨hspace, -⟩ := separator_classes hs
  have htail : ∀ r, headerTail (q ++ s :: w ++ r) =
      (one isSeparator (q.dropWhile isPySpace ++ s :: (w ++ r))).bind
        fun t ↦ many isValue (t.dropWhile isPySpace) := by
    intro r
    rw [headerTail, List.append_assoc, List.cons_append, dropWhile_stop hspace]
  cases hq : q.dropWhile isPySpace with
  | nil =>
      refine .past fun x t h ↦ ?_
      have hdrop : (w ++ (x ++ t)).dropWhile isPySpace = x ++ t := by
        rw [dropWhile_all hw]
        refine dropWhile_head fun c hc ↦ ?_
        obtain ⟨hne, hvalue, -⟩ := h
        cases x with
        | nil => exact absurd rfl hne
        | cons d x =>
            obtain rfl := Option.some.inj hc
            exact isPySpace_of_isValue (hvalue _ List.mem_cons_self)
      rw [htail, hq, List.nil_append, one, if_pos hs, Option.bind_some, hdrop]
      exact many_value h
  | cons e q₂ =>
      have hsuffix : q₂.dropWhile isPySpace ++ s :: w <:+ q ++ s :: w := by
        obtain ⟨z, hz⟩ := (List.dropWhile_suffix isPySpace).trans ((List.suffix_cons e q₂).trans
          (hq ▸ List.dropWhile_suffix isPySpace))
        exact ⟨z, by rw [← List.append_assoc, hz]⟩
      by_cases he : isSeparator e = true
      · have hmany : ∀ r, headerTail (q ++ s :: w ++ r) =
            many isValue (q₂.dropWhile isPySpace ++ s :: w ++ r) := by
          intro r
          rw [htail, hq, List.cons_append, one, if_pos he, Option.bind_some, dropWhile_stop hspace,
            List.append_assoc]
          rfl
        cases decidesOrOver_many (q₂.dropWhile isPySpace ++ s :: w) with
        | no h => exact .no fun x t hx ↦ (hmany _).trans (h x t hx)
        | yes q' hq' h => exact .yes q' (hq'.trans hsuffix) fun x t hx ↦ (hmany _).trans (h x t hx)
        | past h => exact .past fun x t hx ↦ (hmany _).trans (h x t hx)
      · refine .no fun x t _ ↦ ?_
        rw [htail, hq, List.cons_append, one, if_neg he]
        rfl

/-- The parts of `HEADER_PATTERN`, before values of a kind. -/
def HeaderReaches (front : List Char) (good : List Char → List Char → Prop) : Prop :=
  ∀ name ∈ names, (∀ x s, good x s → eat name (front ++ (x ++ s)) = none) ∨
    ∃ q, q <:+ front ∧ DecidesOrOver headerTail q good ∧
      ∀ x s, good x s → eat name (front ++ (x ++ s)) = some (q ++ (x ++ s))

theorem headerReaches_banged (front : List Char) : HeaderReaches front Banged := by
  intro name hname
  have hbang : isNameChar '!' = false := by decide +kernel
  have heat : Decides (eat name) front fun r ↦ ∀ c ∈ r.head?, c = '!' :=
    decides_eat fun r hr c hc ↦ by
      rw [hr c hc]
      exact not_variant_of_not_nameChar hbang (List.mem_cons_of_mem _ hname)
  have hfollows : ∀ x s, Banged x s → ∀ c ∈ (x ++ s).head?, c = '!' := by
    rintro x s ⟨hhead, -⟩ c hc
    cases x with
    | nil => cases hhead
    | cons d x => exact (Option.some.inj hc).symm.trans (Option.some.inj hhead)
  cases heat with
  | no h => exact Or.inl fun x s hx ↦ h _ (hfollows x s hx)
  | yes q hq h =>
      exact Or.inr ⟨q, hq, decidesOrOver_banged q, fun x s hx ↦ h _ (hfollows x s hx)⟩

theorem headerReaches_separated (hs : isSeparator s = true) (hw : ∀ c ∈ w, isPySpace c = true)
    (u : List Char) : HeaderReaches (u ++ s :: w) Ended := by
  intro name hname
  have heat : Decides (eat name) u fun r ↦ r.head? = some s :=
    decides_eat fun r hr c hc ↦ by
      obtain rfl := Option.some.inj (hr.symm.trans hc)
      exact not_variant_of_not_nameChar (separator_classes hs).2.1 (List.mem_cons_of_mem _ hname)
  cases heat with
  | no h =>
      refine Or.inl fun x t _ ↦ ?_
      rw [List.append_assoc]
      exact h _ rfl
  | yes q hq h =>
      refine Or.inr ⟨q ++ s :: w, ?_, decidesOrOver_separated hs hw q, fun x t _ ↦ ?_⟩
      · obtain ⟨z, rfl⟩ := hq
        exact ⟨z, by rw [List.append_assoc]⟩
      · rw [List.append_assoc, List.append_assoc]
        exact h _ rfl

theorem over_header {front : List Char} {good : List Char → List Char → Prop}
    (h : HeaderReaches front good) (hfront : front ≠ []) {x y s t : List Char} (hx : good x s)
    (hy : good y t) (prev : Option Char) :
    WithinOrOver front x s y t (header isalnum prev (front ++ (x ++ s)))
      (header isalnum prev (front ++ (y ++ t))) := by
  have hnamed : ∀ name ∈ names, WithinOrOver front x s y t (headerNamed (front ++ (x ++ s)) name)
      (headerNamed (front ++ (y ++ t)) name) := by
    intro name hname
    unfold headerNamed
    rcases h name hname with hno | ⟨q, hq, htail, heat⟩
    · rw [hno x s hx, hno y t hy]
      exact .within .none
    · rw [heat x s hx, heat y t hy, Option.bind_some, Option.bind_some, take_front hq, take_front hq]
      cases htail with
      | no h =>
          rw [h x s hx, h y t hy]
          exact .within .none
      | yes q' hq' htail =>
          have hlt := headerTail_lt (htail x s hx)
          have hle := hq.length_le
          rw [htail x s hx, htail y t hy]
          refine .within (.some _ q' ?_)
          simp only [List.length_append] at hlt
          omega
      | past htail =>
          rw [htail x s hx, htail y t hy]
          exact .past _
  unfold header boundary
  rw [List.head?_append_of_ne_nil front hfront, List.head?_append_of_ne_nil front hfront]
  split
  · generalize names = ns at hnamed
    clear h
    induction ns with
    | nil => exact .within .none
    | cons name ns ih =>
        have hfirst := hnamed name List.mem_cons_self
        rw [List.findSome?_cons, List.findSome?_cons]
        generalize headerNamed (front ++ (x ++ s)) name = o,
          headerNamed (front ++ (y ++ t)) name = o' at hfirst
        cases hfirst with
        | past text => exact .past text
        | within hfirst =>
            cases hfirst with
            | none => exact ih fun k hk ↦ hnamed k (List.mem_cons_of_mem name hk)
            | some text q hq => exact .within (.some text q hq)
  · exact .within .none

/-! ## The Bearer pattern before a separator -/

/-- What the pattern can do from a position before the separator. -/
inductive BearerBefore (u : List Char) (s : Char) (w : List Char) : Prop
  | no (h : ∀ r, bearerTail (u ++ s :: (w ++ r)) = none)
  | yes (q : List Char) (hq : q <:+ u)
      (h : ∀ r, bearerTail (u ++ s :: (w ++ r)) = some (q ++ s :: (w ++ r)))
  | past (h : ∀ r, w ≠ [] ∨ (∀ c ∈ r.head?, isToken c = false) →
      bearerTail (u ++ s :: (w ++ r)) = some (w ++ r))

theorem bearer_before (hs : isSeparator s = true) (hw : ∀ c ∈ w, isPySpace c = true)
    (u : List Char) : BearerBefore u s w := by
  obtain ⟨hspace, hname, -⟩ := separator_classes hs
  have heat : Decides (fun t ↦ (eat "bearer".toList t).bind (many isPySpace)) u
      fun r ↦ r.head? = some s := by
    refine (decides_eat fun r hr c hc ↦ ?_).bind fun q _ ↦ decides_many fun r hr c hc ↦ ?_
    · obtain rfl := Option.some.inj (hr.symm.trans hc)
      exact not_variant_of_not_nameChar hname List.mem_cons_self
    · obtain rfl := Option.some.inj (hr.symm.trans hc)
      exact hspace
  cases heat with
  | no h =>
      refine .no fun r ↦ ?_
      have hnone := h (s :: (w ++ r)) rfl
      rw [bearerTail, hnone]
      rfl
  | yes q hq h =>
      have htail : ∀ r, bearerTail (u ++ s :: (w ++ r)) = many isToken (q ++ s :: (w ++ r)) := by
        intro r
        have hsome := h (s :: (w ++ r)) rfl
        rw [bearerTail, hsome]
        rfl
      by_cases hall : (∀ c ∈ q, isToken c = true) ∧ isToken s = true
      · refine .past fun r hr ↦ ?_
        have hmem : ∀ c ∈ q ++ [s], isToken c = true := fun c hc ↦
          (List.mem_append.mp hc).elim (hall.1 c) fun hc ↦ List.mem_singleton.mp hc ▸ hall.2
        rw [htail, List.append_cons]
        refine many_all (List.append_ne_nil_of_right_ne_nil q (List.cons_ne_nil s [])) hmem
          fun c hc ↦ ?_
        rcases hr with hne | hr
        · exact (space_classes (head_spaces hne hw r c hc)).2.1
        · cases w with
          | nil => exact hr c hc
          | cons b w =>
              obtain rfl := Option.some.inj hc
              exact (space_classes (hw _ List.mem_cons_self)).2.1
      · have hnot : ¬ ∀ c ∈ q ++ [s], isToken c = true := fun h ↦ hall
          ⟨fun c hc ↦ h c (List.mem_append_left _ hc),
            h s (List.mem_append_right _ (List.mem_singleton_self s))⟩
        rcases many_of_not_all hnot with hno | ⟨c, v, hsuffix, hyes⟩
        · refine .no fun r ↦ ?_
          rw [htail, List.append_cons]
          exact hno _
        · rcases suffix_singleton hsuffix with hnil | ⟨q', hq'⟩
          · cases hnil
          · rw [hq'] at hsuffix hyes
            obtain ⟨z, hz⟩ := hsuffix
            rw [← List.append_assoc] at hz
            refine .yes q' (List.IsSuffix.trans ⟨z, (List.append_inj' hz rfl).1⟩ hq) fun r ↦ ?_
            rw [htail, List.append_cons, hyes, List.append_assoc]
            rfl

end

end S3mp.Redaction
