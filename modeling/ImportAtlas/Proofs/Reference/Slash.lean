import ImportAtlas.Proofs.Reference.Crossing

namespace ImportAtlas

open Text Lexeme Outcome

variable {k w e d body : List Char} {t : LastToken} {x : Char} {text : String}
  {found : List Reference}

namespace Crossing

theorem space : Crossing k t [' '] t := .trivia (.blank (by decide) .nil)

theorem semicolon {c : Char} (hc : isBlank c = true) :
    Crossing k t [';', c] (.punctuation ';') :=
  .append (A := [';']) (.mark (by decide) (by decide)) (.trivia (.blank hc .nil))

theorem scan_append_semicolon {A : List Char} {c : Char} (hc : isAsciiBlank c = true)
    (h : Crossing (';' :: c :: text.toList) .none A t)
    (hbegin : headIs (fun c => c != '#' && c != byteOrderMark) A = true)
    (htext : ¬ BeginsHashbang text) (hfound : scan text = .ok found) :
    scan (String.ofList (A ++ [';', c]) ++ text) =
      .ok (found.map (Reference.shift (byteLength (A ++ [';', c])))) := by
  have hblank : isBlank c = true := by simp [isBlank, hc]
  have hpoint : c ≠ '.' := by
    rintro rfl
    contradiction
  refine (h.append (semicolon hblank)).scan_after ?_ ⟨?_, ?_⟩ htext hfound
  · cases A with
    | nil => contradiction
    | cons => exact hbegin
  · simp [hpoint]
  · rw [List.reverse_append, List.reverse_cons, List.append_assoc]
    exact (congrArg _ (List.dropWhile_cons_of_pos hc)).trans rfl

end Crossing

section Regex

/-- What an expression may come after. -/
def expressionPrefixes : List String :=
  ["x = ", "return ", "x => ", "x && ", "x ? y : ", "!", "typeof ", ";", "if (x) "]

theorem exists_crossing_prefix {p : String} (hp : p ∈ expressionPrefixes) :
    ∃ u, u.allowsRegex = true ∧ Crossing ('/' :: k) .none p.toList u := by
  have name {k : List Char} {t : LastToken} {x : Char} (hx : x ∈ ['x', 'y'])
      (hk : headIs continuesWord k = false) : Crossing k t [x] (.word [x]) := by
    simp only [List.mem_cons, List.not_mem_nil, or_false] at hx
    rcases hx with rfl | rfl
    · exact .word (.of_all (by decide) (by decide)) (by decide) hk
    · exact .word (.of_all (by decide) (by decide)) (by decide) hk
  have mark {k : List Char} {t : LastToken} {x : Char}
      (hx : (ScanState.isMark x && !isBlank x) = true) : Crossing k t [x] (.punctuation x) := by
    rw [Bool.and_eq_true, Bool.not_eq_true'] at hx
    exact .mark hx.1 hx.2
  simp only [expressionPrefixes, List.mem_cons, List.not_mem_nil, or_false] at hp
  rcases hp with rfl | rfl | rfl | rfl | rfl | rfl | rfl | rfl | rfl
  · exact ⟨.punctuation '=', rfl, .append (A := ['x']) (name (by decide) rfl) <|
      .append (A := [' ']) .space <| .append (A := ['=']) (mark (by decide)) .space⟩
  · exact ⟨.word "return".toList, by decide, .append (A := "return".toList)
      (.word (.of_all (by decide) (by decide)) (by decide) rfl) .space⟩
  · exact ⟨.punctuation '>', rfl, .append (A := ['x']) (name (by decide) rfl) <|
      .append (A := [' ']) .space <| .append (A := ['=']) (mark (by decide)) <|
      .append (A := ['>']) (mark (by decide)) .space⟩
  · exact ⟨.punctuation '&', rfl, .append (A := ['x']) (name (by decide) rfl) <|
      .append (A := [' ']) .space <| .append (A := ['&']) (mark (by decide)) <|
      .append (A := ['&']) (mark (by decide)) .space⟩
  · exact ⟨.punctuation ':', rfl, .append (A := ['x']) (name (by decide) rfl) <|
      .append (A := [' ']) .space <| .append (A := ['?']) (mark (by decide)) <|
      .append (A := [' ']) .space <| .append (A := ['y']) (name (by decide) rfl) <|
      .append (A := [' ']) .space <| .append (A := [':']) (mark (by decide)) .space⟩
  · exact ⟨.punctuation '!', rfl, mark (by decide)⟩
  · exact ⟨.word "typeof".toList, by decide, .append (A := "typeof".toList)
      (.word (.of_all (by decide) (by decide)) (by decide) rfl) .space⟩
  · exact ⟨.punctuation ';', rfl, mark (by decide)⟩
  · exact ⟨.controlHead, rfl, .append (A := ['i', 'f'])
      (.word (.of_all (by decide) (by decide)) (by decide) rfl) <|
      .append (A := [' ']) .space <| .append (A := ['(', 'x', ')'])
      (.group (name (by decide) rfl)) .space⟩

theorem crossing_default {u : LastToken} (hbody : IsRegex body)
    (h : Crossing ('/' :: ';' :: '\n' :: k) (.punctuation '/') body u) :
    Crossing (';' :: '\n' :: k) .none ("export default ".toList ++ quoted '/' body)
      (.punctuation '/') := by
  have hclose : headIs (fun c => c = '/' || c = '*') (body ++ '/' :: ';' :: '\n' :: k) = false := by
    have hs := hbody.startsTrivia (k := ';' :: '\n' :: k)
    rwa [startsTrivia_cons, (by decide : isBlank '/' = false), Bool.false_or,
      decide_eq_true (rfl : '/' = '/'), Bool.true_and] at hs
  have hexport : Crossing (' ' :: ("default ".toList ++ (quoted '/' body ++ ';' :: '\n' :: k)))
      .none "export".toList (.word exportName) :=
    .exported (T := [' ']) (.blank (by decide) .nil) rfl rfl rfl
  have hdefault : Crossing (' ' :: (quoted '/' body ++ ';' :: '\n' :: k)) (.word exportName)
      "default".toList (.word "default".toList) :=
    .word (.of_all (by decide) (by decide)) (by decide) rfl
  have hslash : Crossing (body ++ '/' :: ';' :: '\n' :: k) (.word "default".toList) ['/']
      (.punctuation '/') :=
    .slash hclose fun h => absurd h (by decide)
  have hlast : Crossing (';' :: '\n' :: k) u ['/'] (.punctuation '/') :=
    .slash rfl fun _ => rfl
  have hquoted : Crossing (';' :: '\n' :: k) (.word "default".toList) (quoted '/' body)
      (.punctuation '/') := by
    refine .append (A := ['/']) ?_ (.append h hlast)
    simpa using hslash
  exact .append (A := "export".toList) hexport <| .append (A := [' ']) .space <|
    .append (A := "default".toList) hdefault <| .append (A := [' ']) .space hquoted

/-- A regular expression is passed over wherever an expression begins.  After
`export default` it is read as code, which makes no difference where its body is code
without references. -/
theorem scan_regex {p body : String} (hbody : IsRegex body.toList)
    (hp : p ∈ expressionPrefixes ∨ p = "export default " ∧
      ∃ u, Crossing ("/;\n" ++ text).toList (.punctuation '/') body.toList u)
    (htext : ¬ BeginsHashbang text) (hfound : scan text = .ok found) :
    scan (p ++ "/" ++ body ++ "/;\n" ++ text) =
      .ok (found.map (Reference.shift (byteLength (p ++ "/" ++ body ++ "/;\n").toList))) := by
  have hlist : (p ++ "/" ++ body ++ "/;\n").toList =
      p.toList ++ quoted '/' body.toList ++ [';', '\n'] := by
    simp [quoted]
  have hbegin : headIs (fun c => c != '#' && c != byteOrderMark) p.toList = true := by
    rcases hp with hp | ⟨rfl, -⟩
    · have hall : expressionPrefixes.all fun p =>
          headIs (fun c => c != '#' && c != byteOrderMark) p.toList := by decide
      exact List.all_eq_true.1 hall p hp
    · decide
  have hcross : ∃ t, Crossing (';' :: '\n' :: text.toList) .none
      (p.toList ++ quoted '/' body.toList) t := by
    rcases hp with hp | ⟨rfl, u, hu⟩
    · obtain ⟨u, hu, hcross⟩ := exists_crossing_prefix hp
      refine ⟨.value, .append ?_ (.regex hu hbody rfl)⟩
      rw [quoted_append]
      exact hcross
    · exact ⟨_, crossing_default hbody (by simpa using hu)⟩
  obtain ⟨t, hcross⟩ := hcross
  have heq : p ++ "/" ++ body ++ "/;\n" =
      String.ofList (p.toList ++ quoted '/' body.toList ++ [';', '\n']) := by
    rw [← hlist, String.ofList_toList]
  have hne : p.toList ≠ [] := by
    intro hnil
    rw [hnil] at hbegin
    contradiction
  rw [hlist, heq]
  refine hcross.scan_append_semicolon (by decide) ?_ htext hfound
  rwa [headIs_append_of_ne_nil hne]

theorem isRegex_quotes : IsRegex "[/']`\\/\"".toList where
  ne_nil := by decide
  noComment := by decide
  closed := .openClass <| .char (by decide) (fun _ => rfl) <| .char (by decide) (fun _ => rfl) <|
    .closeClass <| .char (by decide) (by decide) <| .escape (by decide) <|
    .char (by decide) (by decide) .nil

theorem scan_regex_quotes : IsRegex "[/']`\\/\"".toList ∧ "return " ∈ expressionPrefixes ∧
    ¬ BeginsHashbang "import './a'" ∧
    scan "import './a'" = .ok [⟨"./a", 7, 12, .declaration⟩] ∧
    scan ("return " ++ "/" ++ "[/']`\\/\"" ++ "/;\n" ++ "import './a'") =
      .ok [⟨"./a", 26, 31, .declaration⟩] := by
  have hprefix : "return " ∈ expressionPrefixes := by decide
  have hhashbang : ¬ BeginsHashbang "import './a'" := by
    unfold BeginsHashbang
    decide +kernel
  have hscan : scan "import './a'" = .ok [⟨"./a", 7, 12, .declaration⟩] :=
    eq_ok_of_toOption (by decide +kernel)
  refine ⟨isRegex_quotes, hprefix, hhashbang, hscan, ?_⟩
  rw [scan_regex isRegex_quotes (.inl hprefix) hhashbang hscan]
  rfl

end Regex

section Division

def keywords : List String := LastToken.expressionWords ++ LastToken.controlWords ++
  ["import", "export"]

structure IsName (w : List Char) : Prop where
  word : IsWord w
  noKeyword : ∀ u ∈ keywords, u.toList ≠ w

/-- Digits with what belongs to a number, a point before them or a sign in the
exponent. -/
inductive Numeral : List Char → Prop
  | digits {x : Char} {A : List Char} : x.isDigit = true →
      (∀ c ∈ A, (isWordPart c || c = '.') = true) → Numeral (x :: A)
  | fraction {x : Char} {A : List Char} : x.isDigit = true →
      (∀ c ∈ A, (isWordPart c || c = '.') = true) → Numeral ('.' :: x :: A)
  | exponent {A B : List Char} {sign x : Char} : Numeral A →
      headIs (fun c => c = 'e' || c = 'E') A.reverse = true → sign ∈ ['+', '-'] →
      x.isDigit = true → (∀ c ∈ B, (isWordPart c || c = '.') = true) →
      Numeral (A ++ sign :: x :: B)

/-- A name with two signs after it. -/
inductive Postfix : List Char → Prop
  | mk {w : List Char} {sign : Char} : IsName w → sign ∈ ['+', '-'] → Postfix (w ++ [sign, sign])

theorem Postfix.headIs_reverse (h : Postfix e) :
    headIs (fun c => c = '+' || c = '-') e.reverse = true := by
  cases h with
  | mk _ hsign => simpa using hsign

/-- Expressions after which a slash divides. -/
inductive Operand : List Char → Prop
  | name {w : List Char} : IsName w → Operand w
  | numeral {A : List Char} : Numeral A → Operand A
  | string {quote : Char} {body : List Char} : isQuote quote = true → StringBody quote body →
      Operand (quoted quote body)
  | template {body : List Char} : TemplateBody body → Operand (quoted '\x60' body)
  | group {e : List Char} : Operand e → Operand ('(' :: (e ++ [')']))
  | index {w e : List Char} : IsName w → Operand e → Operand (w ++ '[' :: (e ++ [']']))
  | call {w : List Char} : IsName w → w ≠ requireName → Operand (w ++ ['(', ')'])
  | postfixed {e : List Char} : Postfix e → Operand e

structure EndsOperand (k : List Char) : Prop where
  apart : headIs (fun c => isWordPart c || c = '.') k = false
  uncalled : ∃ T y, k = T ++ y ∧ Trivia T ∧ startsTrivia y = false ∧ headIs (· = '(') y = false

theorem EndsOperand.continuesWord (h : EndsOperand k) : headIs continuesWord k = false :=
  headIs_eq_false_of_imp (fun c hc => by simp_all [Lexeme.continuesWord]) h.apart

theorem EndsOperand.of_mark (hx : x ∈ [')', '[', ']', '+', '-', ';']) : EndsOperand (x :: k) := by
  have hmark : (isWordPart x || x = '.') = false ∧ isBlank x = false ∧ x ≠ '/' ∧ x ≠ '(' := by
    simp only [List.mem_cons, List.not_mem_nil, or_false] at hx
    rcases hx with rfl | rfl | rfl | rfl | rfl | rfl <;> decide
  exact ⟨hmark.1, [], _, rfl, .nil, ScanState.startsTrivia_of_ne hmark.2.1 hmark.2.2.1,
    decide_eq_false hmark.2.2.2⟩

theorem EndsOperand.of_sign (hx : x ∈ ['+', '-']) : EndsOperand (x :: k) := by
  simp only [List.mem_cons, List.not_mem_nil, or_false] at hx
  rcases hx with rfl | rfl
  · exact .of_mark (by decide)
  · exact .of_mark (by decide)

theorem crossing_word (hw : IsWord w) (hplain : w ∉ [importName, exportName])
    (hk : EndsOperand k) : Crossing k t w (.word w) := by
  by_cases hrequire : w = requireName
  · obtain ⟨T, y, rfl, hT, hs, hy⟩ := hk.uncalled
    exact hrequire ▸ .required hT hk.continuesWord hs hy
  · exact .word hw (by simp_all) hk.continuesWord

namespace IsName

theorem isWordAmong (h : IsName w) {words : List String} (hwords : words ⊆ keywords) :
    (LastToken.word w).isWordAmong words = false := by
  by_contra hw
  obtain ⟨u, hu, hw⟩ := List.any_eq_true.1 (Bool.not_eq_false _ ▸ hw)
  exact h.noKeyword u (hwords hu) (of_decide_eq_true hw)

theorem not_control (h : IsName w) :
    (LastToken.word w).isWordAmong LastToken.controlWords = false :=
  h.isWordAmong fun u hu => by simp [keywords, hu]

theorem not_expression (h : IsName w) : (LastToken.word w).allowsRegex = false := by
  have hword : (LastToken.word w).isWordAmong LastToken.expressionWords = false :=
    h.isWordAmong fun u hu => by simp [keywords, hu]
  exact hword

theorem plain (h : IsName w) : w ∉ [importName, exportName] := by
  simp only [List.mem_cons, List.not_mem_nil, or_false, not_or]
  exact ⟨(h.noKeyword "import" (by decide)).symm, (h.noKeyword "export" (by decide)).symm⟩

theorem crossing (h : IsName w) (hk : EndsOperand k) : Crossing k t w (.word w) :=
  crossing_word h.word h.plain hk

end IsName

theorem Crossing.sign {x : Char} (hx : x ∈ ['+', '-']) : Crossing k t [x] (.punctuation x) := by
  simp only [List.mem_cons, List.not_mem_nil, or_false] at hx
  rcases hx with rfl | rfl
  · exact .mark (by decide) (by decide)
  · exact .mark (by decide) (by decide)

theorem Numeral.crossing (h : Numeral e)
    (hk : headIs (fun c => isWordPart c || c = '.') k = false) : Crossing k t e .value := by
  induction h generalizing k t with
  | digits hx hA => exact .number hx hA hk
  | fraction hx hA =>
    exact .append (A := ['.']) (.mark (by decide) (by decide)) (.number hx hA hk)
  | @exponent A B sign x _ _ hsign hx hB ih =>
    have hend : EndsOperand (sign :: x :: B ++ k) := .of_sign hsign
    exact .append (ih hend.apart) (.append (A := [sign]) (.sign hsign) (.number hx hB hk))

theorem Postfix.exists_crossing (h : Postfix e) : ∃ u, Crossing k t e u := by
  cases h with
  | @mk w sign hw hsign =>
    have hend : EndsOperand ([sign, sign] ++ k) := .of_sign hsign
    exact ⟨_, .append (hw.crossing hend) (.append (A := [sign]) (.sign hsign) (.sign hsign))⟩

theorem Operand.exists_crossing (h : Operand e) (hk : EndsOperand k)
    (ht : t.isWordAmong LastToken.controlWords = false) :
    ∃ u, Crossing k t e u ∧ (Postfix e ∨ u.allowsRegex = false) := by
  induction h generalizing k t with
  | name hw => exact ⟨_, hw.crossing hk, .inr hw.not_expression⟩
  | numeral hA => exact ⟨.value, hA.crossing hk.apart, .inr rfl⟩
  | string hq hb => exact ⟨.value, .string hq hb, .inr rfl⟩
  | template hb => exact ⟨.value, .template hb, .inr rfl⟩
  | group _ ih =>
    obtain ⟨u, hu, -⟩ := ih (k := ')' :: k) (t := .punctuation '(') (.of_mark (by decide)) rfl
    have hgroup := hu.group (t := t)
    rw [ht] at hgroup
    exact ⟨_, hgroup, .inr rfl⟩
  | @index w e hw _ ih =>
    obtain ⟨u, hu, -⟩ := ih (k := ']' :: k) (t := .punctuation '[') (.of_mark (by decide)) rfl
    refine ⟨.punctuation ']', .append (hw.crossing (.of_mark (by decide))) ?_, .inr rfl⟩
    exact .append (A := ['[']) (.mark (by decide) (by decide))
      (.append hu (.mark (by decide) (by decide)))
  | @call w hw hrequire =>
    have hgroup := Crossing.group (k := k) (t := .word w) (.trivia (t := .punctuation '(') .nil)
    have hplain := hw.plain
    rw [hw.not_control] at hgroup
    exact ⟨_, .append (.word hw.word (by simp_all) rfl) hgroup, .inr rfl⟩
  | postfixed h =>
    obtain ⟨u, hu⟩ := h.exists_crossing
    exact ⟨u, hu, .inl h⟩

theorem crossing_division {u : LastToken} (hd : IsWord d) (hplain : d ∉ [importName, exportName])
    (hslash : u.allowsRegex = true → regex? ("/ ".toList ++ d ++ ';' :: ' ' :: k) = none) :
    Crossing (';' :: ' ' :: k) u (" / ".toList ++ d) (.word d) := by
  have hend : EndsOperand (';' :: ' ' :: k) := .of_mark (by decide)
  have hdivides : Crossing (' ' :: d ++ ';' :: ' ' :: k) u ['/'] (.punctuation '/') :=
    .slash rfl hslash
  exact .append (A := [' ']) .space <| .append (A := ['/']) hdivides <|
    .append (A := [' ']) .space (crossing_word hd hplain hend)

theorem crossing_assignment (he : Operand e) (hd : IsWord d)
    (hplain : d ∉ [importName, exportName])
    (hslash : ¬ Postfix e ∨ regex? ("/ ".toList ++ d ++ ';' :: ' ' :: k) = none) :
    Crossing (';' :: ' ' :: k) .none ("v = ".toList ++ (e ++ (" / ".toList ++ d))) (.word d) := by
  have hend : EndsOperand (" / ".toList ++ d ++ ';' :: ' ' :: k) :=
    ⟨rfl, [' '], _, rfl, .blank (by decide) .nil, rfl, rfl⟩
  obtain ⟨u, hu, hlast⟩ := he.exists_crossing (t := .punctuation '=') hend rfl
  have hv : Crossing (' ' :: ("= ".toList ++ (e ++ (" / ".toList ++ d)) ++ ';' :: ' ' :: k)) .none
      ['v'] (.word ['v']) :=
    .word (.of_all (by decide) (by decide)) (by decide) rfl
  have hassigned := hu.append (crossing_division hd hplain fun hregex =>
    hslash.resolve_left (not_not_intro (hlast.resolve_right (by simp [hregex]))))
  exact .append (A := ['v']) hv <| .append (A := [' ']) .space <|
    .append (A := ['=']) (.mark (by decide) (by decide)) <| .append (A := [' ']) .space hassigned

/-- A slash after an operand divides.  After a postfix operator it does so where no
slash further on in the line closes a regular expression. -/
theorem scan_division {e d : String} (he : Operand e.toList) (hd : IsWord d.toList)
    (hplain : d ∉ ["import", "export"])
    (hslash : ¬ Postfix e.toList ∨ regex? ("/ " ++ d ++ "; " ++ text).toList = none)
    (htext : ¬ BeginsHashbang text) (hfound : scan text = .ok found) :
    scan ("v = " ++ e ++ " / " ++ d ++ "; " ++ text) =
      .ok (found.map (Reference.shift (byteLength ("v = " ++ e ++ " / " ++ d ++ "; ").toList))) := by
  have hlist : ("v = " ++ e ++ " / " ++ d ++ "; ").toList =
      "v = ".toList ++ (e.toList ++ (" / ".toList ++ d.toList)) ++ [';', ' '] := by
    simp
  have heq : "v = " ++ e ++ " / " ++ d ++ "; " = String.ofList
      ("v = ".toList ++ (e.toList ++ (" / ".toList ++ d.toList)) ++ [';', ' ']) := by
    rw [← hlist, String.ofList_toList]
  have hnames : d.toList ∉ [importName, exportName] := by
    simp only [List.mem_cons, List.not_mem_nil, or_false, not_or] at hplain ⊢
    exact ⟨fun h => hplain.1 (String.toList_inj.1 h), fun h => hplain.2 (String.toList_inj.1 h)⟩
  rw [hlist, heq]
  refine (crossing_assignment he hd hnames ?_).scan_append_semicolon (by decide) rfl htext hfound
  simpa using hslash

theorem operand_index : Operand "a[1e-5]".toList :=
  .index (w := ['a']) (e := ['1', 'e', '-', '5'])
    ⟨.of_all (by decide) (by decide), by decide +kernel⟩ <|
    .numeral <| .exponent (A := ['1', 'e'])
      (.digits (by decide) (List.forall_mem_singleton.2 (by decide))) rfl (by decide) (by decide)
      (by simp)

theorem scan_division_index : Operand "a[1e-5]".toList ∧ IsWord "of".toList ∧
    "of" ∉ ["import", "export"] ∧ ¬ Postfix "a[1e-5]".toList ∧
    ¬ BeginsHashbang "import './a'" ∧
    scan "import './a'" = .ok [⟨"./a", 7, 12, .declaration⟩] ∧
    scan ("v = " ++ "a[1e-5]" ++ " / " ++ "of" ++ "; " ++ "import './a'") =
      .ok [⟨"./a", 25, 30, .declaration⟩] := by
  have hword : IsWord "of".toList := .of_all (by decide) (by decide)
  have hplain : "of" ∉ ["import", "export"] := by decide
  have hpostfix : ¬ Postfix "a[1e-5]".toList :=
    fun h => absurd h.headIs_reverse (by decide)
  have hhashbang : ¬ BeginsHashbang "import './a'" := by
    unfold BeginsHashbang
    decide +kernel
  have hscan : scan "import './a'" = .ok [⟨"./a", 7, 12, .declaration⟩] :=
    eq_ok_of_toOption (by decide +kernel)
  refine ⟨operand_index, hword, hplain, hpostfix, hhashbang, hscan, ?_⟩
  rw [scan_division operand_index hword hplain (.inl hpostfix) hhashbang hscan]
  rfl

end Division

end ImportAtlas
