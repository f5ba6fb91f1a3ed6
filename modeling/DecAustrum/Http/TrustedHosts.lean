import DecAustrum.TokenCodec

/-!
# Trusted hosts

The host of a request is cut out of the `Host` header and compared with the configured patterns.
What a header should look like is stated apart, and the headers that pass without it are named.
-/
namespace DecAustrum

open Python

/-! ## The check -/

/-- What the interpreter knows of characters beyond ASCII. -/
structure UnicodeTables where
  /-- `str.lower`. -/
  lower : Str → Str
  /-- `str.isdigit` of one character. -/
  digit : CodePoint → Bool
  ascii : ∀ c : CodePoint, c.val < 128 → digit c = isDigit c

def colon : CodePoint := 0x3a

def openBracket : CodePoint := 0x5b

def closeBracket : CodePoint := 0x5d

def asterisk : CodePoint := 0x2a

/-- `text.rstrip(".")`. -/
def rstripDots (s : Str) : Str := s.rdropWhile (· = dot)

section

variable (tables : UnicodeTables)

/-- `str.isdigit`. -/
def isDigits (s : Str) : Bool := !s.isEmpty && s.all tables.digit

/-- `header.strip().lower().rstrip(".")`. -/
def normalizedHeader (header : Str) : Str :=
  rstripDots (tables.lower ((header.dropWhile isSpace).rdropWhile isSpace))

/-- `_host_without_port` of a normalised header. -/
def hostOf (value : Str) : Str :=
  if value.head? = some openBracket then
    if closeBracket ∈ value then value.tail.takeWhile (· ≠ closeBracket) else []
  else if value.count colon = 1 then
    if isDigits tables (value.dropWhile (· ≠ colon)).tail then value.takeWhile (· ≠ colon) else value
  else value

/-- `_host_without_port`. -/
def hostWithoutPort (header : Str) : Str := hostOf tables (normalizedHeader tables header)

/-- `pattern.lower().rstrip(".")`. -/
def normalizedPattern (pattern : Str) : Str := rstripDots (tables.lower pattern)

/-- `_host_allowed`. -/
def hostAllowed (host : Str) (patterns : List Str) : Bool :=
  patterns.any fun pattern =>
    let normalized := normalizedPattern tables pattern
    if [asterisk, dot].isPrefixOf normalized then
      let suffix := normalized.drop 1
      suffix.isSuffixOf host && host ≠ suffix.drop 1
    else host = normalized

/-- The header whose host is checked: a request without exactly one has an empty one. -/
def hostHeader : List Str → Str
  | [header] => header
  | _ => []

/-- The check of the middleware, on the values of the `Host` header. -/
def passesHostCheck (headers : List Str) (patterns : List Str) : Bool :=
  hostAllowed tables (hostWithoutPort tables (hostHeader headers)) patterns

end

/-- What `RuntimeSettings.validate` asks of the patterns. -/
def validTrustedHosts (patterns : List Str) : Bool :=
  !patterns.isEmpty && patterns.all fun host =>
    !(host.isEmpty || host = [asterisk] || host.contains 0x2f || host.contains 0x20 ||
      host = [asterisk, dot] || (host.contains asterisk && !List.isPrefixOf [asterisk, dot] host))

/-! ## What a header should be -/

/-- A group of an IPv6 address. -/
def isHexGroup (s : Str) : Bool :=
  1 ≤ s.length && s.length ≤ 4 && s.all fun c => isDigit c || (0x61 ≤ c.val && c.val ≤ 0x66)

def isIpv4 (s : Str) : Bool :=
  (split dot s).length = 4 && (split dot s).all fun part =>
    1 ≤ part.length && part.length ≤ 3 && part.all isDigit &&
      (part.foldl (fun n c => n * 10 + (c.val - 0x30)) 0) ≤ 255

/-- How many groups a text without `::` has; the last two of an address may be an IPv4 address. -/
def hexGroups (ending : Bool) (s : Str) : Option Nat :=
  if s = [] then some 0
  else
    let parts := split colon s
    if parts.all isHexGroup then some parts.length
    else if ending && parts.dropLast.all isHexGroup && parts.getLast?.any isIpv4 then
      some (parts.length + 1)
    else none

/-- An IPv6 address in lower case. -/
def isIpv6 (s : Str) : Bool :=
  s.all (· ≠ closeBracket) &&
    (hexGroups true s = some 8 || (List.range s.length).any fun i =>
      (s.drop i).take 2 = [colon, colon] &&
        match hexGroups false (s.take i), hexGroups true (s.drop (i + 2)) with
        | some before, some after => before + after ≤ 7
        | _, _ => false)

/-- An ASCII decimal port. -/
def isPort (s : Str) : Bool := !s.isEmpty && s.all isDigit

/-- `host`, `host:port`, `[v6]` or `[v6]:port`, and nothing else. -/
inductive HeaderForm : Str → Str → Prop where
  | host (h : Str) (given : h ≠ []) (plain : colon ∉ h) (unbracketed : h.head? ≠ some openBracket) :
      HeaderForm h h
  | hostPort (h port : Str) (given : h ≠ []) (plain : colon ∉ h)
      (unbracketed : h.head? ≠ some openBracket) (decimal : isPort port = true) :
      HeaderForm (h ++ colon :: port) h
  | address (v6 : Str) (valid : isIpv6 v6 = true) : HeaderForm (openBracket :: v6 ++ [closeBracket]) v6
  | addressPort (v6 port : Str) (valid : isIpv6 v6 = true) (decimal : isPort port = true) :
      HeaderForm (openBracket :: v6 ++ closeBracket :: colon :: port) v6

/-- Letters, digits and the hyphen. -/
def isHostNameChar (c : CodePoint) : Bool :=
  isDigit c || (0x61 ≤ c.val && c.val ≤ 0x7a) || c.val = 0x2d

/-- A label and a dot, for each label. -/
def dotted (labels : List Str) : Str := labels.flatMap fun label => label ++ [dot]

/-- The host is a pattern, or labels in front of the suffix of a pattern `*.suffix`. -/
def Named (tables : UnicodeTables) (patterns : List Str) (host : Str) : Prop :=
  ∃ pattern ∈ patterns, host = normalizedPattern tables pattern ∨
    ∃ suffix labels, normalizedPattern tables pattern = asterisk :: dot :: suffix ∧
      labels ≠ [] ∧ (∀ label ∈ labels, label ≠ [] ∧ label.all isHostNameChar = true) ∧
      host = dotted labels ++ suffix

/-- What a trusted header looks like. -/
def Conforms (tables : UnicodeTables) (patterns : List Str) (value : Str) : Prop :=
  ∃ host, HeaderForm value host ∧ Named tables patterns host

/-! ## Headers that pass all the same -/

/-- The text is the pattern, or ends in a dot and the suffix of the pattern `*.suffix`. -/
def Meets (tables : UnicodeTables) (patterns : List Str) (text : Str) : Prop :=
  ∃ pattern ∈ patterns,
    (∃ suffix, normalizedPattern tables pattern = asterisk :: dot :: suffix ∧ dot :: suffix <:+ text) ∨
      (¬ [asterisk, dot] <+: normalizedPattern tables pattern ∧ text = normalizedPattern tables pattern)

/-- The kinds of headers that pass and are not what a trusted header should be. -/
inductive HostSlip (tables : UnicodeTables) (patterns : List Str) : Str → Prop where
  /-- A bracket is not closed, and a pattern is nothing but dots. -/
  | unclosed (rest : Str) (never : closeBracket ∉ rest) (meets : Meets tables patterns []) :
      HostSlip tables patterns (openBracket :: rest)
  /-- What follows the bracket is no port. -/
  | afterBracket (v6 tail : Str) (closed : closeBracket ∉ v6) (meets : Meets tables patterns v6)
      (more : tail ≠ []) (noPort : ∀ port, isPort port = true → tail ≠ colon :: port) :
      HostSlip tables patterns (openBracket :: v6 ++ closeBracket :: tail)
  /-- What is in brackets is no address. -/
  | notAddress (v6 tail : Str) (closed : closeBracket ∉ v6) (meets : Meets tables patterns v6)
      (invalid : isIpv6 v6 = false) : HostSlip tables patterns (openBracket :: v6 ++ closeBracket :: tail)
  /-- The port has digits beyond ASCII. -/
  | unusualDigits (h port : Str) (plain : colon ∉ h) (unbracketed : h.head? ≠ some openBracket)
      (meets : Meets tables patterns h) (digits : isDigits tables port = true)
      (unusual : isPort port = false) : HostSlip tables patterns (h ++ colon :: port)
  /-- A colon that does not begin a port, in a text that a pattern fits as a whole. -/
  | strayColon (value : Str) (unbracketed : value.head? ≠ some openBracket) (stray : colon ∈ value)
      (noPort : ∀ h port, value = h ++ colon :: port → isDigits tables port = true → colon ∈ h)
      (meets : Meets tables patterns value) : HostSlip tables patterns value
  /-- There is no host, and a pattern is nothing but dots. -/
  | noHost (value : Str) (portOnly : value = [] ∨ ∃ port, isDigits tables port = true ∧
      value = colon :: port) (meets : Meets tables patterns []) : HostSlip tables patterns value
  /-- The host is no pattern, and in front of each suffix it ends in, one of the parts between the
  dots is empty or has other characters. -/
  | notLabels (value h : Str) (form : HeaderForm value h) (meets : Meets tables patterns h)
      (different : ∀ pattern ∈ patterns, h ≠ normalizedPattern tables pattern)
      (odd : ∀ pattern ∈ patterns, ∀ suffix front,
        normalizedPattern tables pattern = asterisk :: dot :: suffix → h = front ++ dot :: suffix →
          ∃ label ∈ split dot front, label = [] ∨ label.all isHostNameChar = false) :
      HostSlip tables patterns value

section

variable {tables : UnicodeTables} {patterns : List Str}

/-- A text that ends in a dot and the suffix is longer than the suffix, so the comparison with the
bare suffix decides nothing. -/
theorem hostAllowed_iff (host : Str) :
    hostAllowed tables host patterns = true ↔ Meets tables patterns host := by
  rw [hostAllowed, List.any_eq_true]
  refine exists_congr fun pattern => and_congr_right fun _ => ?_
  generalize normalizedPattern tables pattern = normalized
  by_cases wild : [asterisk, dot] <+: normalized
  · rw [if_pos (List.isPrefixOf_iff_prefix.mpr wild)]
    obtain ⟨suffix, rfl⟩ := wild
    have longer (ends : dot :: suffix <:+ host) : host ≠ suffix := by
      rintro rfl
      have bound := ends.length_le
      rw [List.length_cons] at bound
      omega
    simp only [List.cons_append, List.nil_append, List.drop_succ_cons, List.drop_zero,
      Bool.and_eq_true, List.isSuffixOf_iff_suffix, decide_eq_true_eq]
    constructor
    · exact fun both => .inl ⟨suffix, rfl, both.1⟩
    · rintro (⟨other, same, ends⟩ | ⟨literal, -⟩)
      · cases same
        exact ⟨ends, longer ends⟩
      · exact absurd (List.prefix_append [asterisk, dot] suffix) literal
  · rw [if_neg fun starts => wild (List.isPrefixOf_iff_prefix.mp starts), decide_eq_true_eq]
    constructor
    · exact fun same => .inr ⟨wild, same⟩
    · rintro (⟨suffix, same, -⟩ | ⟨-, same⟩)
      · exact absurd (same ▸ List.prefix_append [asterisk, dot] suffix) wild
      · exact same

/-! ## Labels -/

theorem dotted_split (front : Str) : dotted (split dot front) = front ++ [dot] := by
  induction front with
  | nil => rfl
  | cons c rest ih =>
    rw [split]
    split
    next same =>
      subst same
      rw [dotted, List.flatMap_cons, List.nil_append]
      exact congrArg (dot :: ·) ih
    next =>
      cases parts : split dot rest with
      | nil => exact absurd parts (split_ne_nil dot rest)
      | cons part parts' =>
        rw [parts] at ih
        exact congrArg (c :: ·) ih

/-- Labels without a dot are the parts of the text they make. -/
theorem split_dotted {labels : List Str} (some : labels ≠ []) (clean : ∀ label ∈ labels, dot ∉ label) :
    ∃ front, dotted labels = front ++ [dot] ∧ split dot front = labels := by
  induction labels with
  | nil => exact absurd rfl some
  | cons label labels ih =>
    have plain := clean label (List.mem_cons_self ..)
    by_cases last : labels = []
    · subst last
      exact ⟨label, List.append_nil _, split_clean plain⟩
    · obtain ⟨front, whole, parts⟩ := ih last fun l inside => clean l (List.mem_cons_of_mem _ inside)
      refine ⟨label ++ dot :: front, ?_, ?_⟩
      · change (label ++ [dot]) ++ dotted labels = _
        rw [whole]
        simp
      · rw [split_append plain, parts]

theorem not_dot_of_hostName {label : Str} (letters : label.all isHostNameChar = true) : dot ∉ label := by
  intro inside
  have char := List.all_eq_true.mp letters dot inside
  revert char
  decide

/-- A host is named, unless it is no pattern and has no labels in front of a suffix. -/
theorem named_iff (host : Str) : Named tables patterns host ↔
    ¬ ((∀ pattern ∈ patterns, host ≠ normalizedPattern tables pattern) ∧
      ∀ pattern ∈ patterns, ∀ suffix front,
        normalizedPattern tables pattern = asterisk :: dot :: suffix → host = front ++ dot :: suffix →
          ∃ label ∈ split dot front, label = [] ∨ label.all isHostNameChar = false) := by
  constructor
  · rintro ⟨pattern, inside, same | ⟨suffix, labels, wild, some, names, whole⟩⟩ ⟨different, odd⟩
    · exact different pattern inside same
    · obtain ⟨front, joined, parts⟩ :=
        split_dotted some fun label member => not_dot_of_hostName (names label member).2
      have shape : host = front ++ dot :: suffix := by
        rw [whole, joined, List.append_assoc]
        rfl
      obtain ⟨label, member, empty | letters⟩ := odd pattern inside suffix front wild shape
      · exact (names label (parts ▸ member)).1 empty
      · rw [(names label (parts ▸ member)).2] at letters
        cases letters
  · intro not
    by_contra unnamed
    refine not ⟨fun pattern inside same => unnamed ⟨pattern, inside, .inl same⟩, ?_⟩
    intro pattern inside suffix front wild whole
    -- Otherwise every part is a label.
    by_contra regular
    refine unnamed ⟨pattern, inside, .inr ⟨suffix, split dot front, wild, split_ne_nil dot front, ?_, ?_⟩⟩
    · intro label member
      refine ⟨fun empty => regular ⟨label, member, .inl empty⟩, ?_⟩
      by_contra letters
      exact regular ⟨label, member, .inr (by simpa using letters)⟩
    · rw [dotted_split, whole, List.append_assoc]
      rfl

/-! ## Cutting out the host -/

theorem not_colon_of_digits {port : Str} (digits : isDigits tables port = true) : colon ∉ port := by
  intro inside
  rw [isDigits, Bool.and_eq_true, List.all_eq_true] at digits
  have digit := digits.2 colon inside
  rw [tables.ascii colon (by decide)] at digit
  revert digit
  decide

theorem isDigits_of_isPort {port : Str} (decimal : isPort port = true) : isDigits tables port = true := by
  rw [isPort, Bool.and_eq_true, List.all_eq_true] at decimal
  rw [isDigits, Bool.and_eq_true, List.all_eq_true]
  refine ⟨decimal.1, fun c inside => ?_⟩
  have digit := decimal.2 c inside
  rw [tables.ascii c, digit]
  rw [isDigit, Bool.and_eq_true, decide_eq_true_eq, decide_eq_true_eq] at digit
  omega

theorem takeWhile_of_not_mem {c : CodePoint} {s : Str} (absent : c ∉ s) (rest : Str) :
    (s ++ c :: rest).takeWhile (· ≠ c) = s := by
  have all : ∀ d ∈ s, decide (d ≠ c) = true :=
    fun d inside => decide_eq_true fun same => absent (same ▸ inside)
  rw [List.takeWhile_append_of_pos all, List.takeWhile_cons_of_neg (by simp), List.append_nil]

theorem dropWhile_of_not_mem {c : CodePoint} {s : Str} (absent : c ∉ s) (rest : Str) :
    (s ++ c :: rest).dropWhile (· ≠ c) = c :: rest := by
  have all : ∀ d ∈ s, decide (d ≠ c) = true :=
    fun d inside => decide_eq_true fun same => absent (same ▸ inside)
  rw [List.dropWhile_append_of_pos all, List.dropWhile_cons_of_neg (by simp)]

/-- A text with a character in it splits at the first. -/
theorem split_first {c : CodePoint} {s : Str} (inside : c ∈ s) :
    ∃ before after, s = before ++ c :: after ∧ c ∉ before := by
  obtain ⟨before, after, whole, first⟩ := List.eq_append_cons_of_mem inside
  exact ⟨before, after, whole, first⟩

/-- The text up to the first of a character is determined. -/
theorem append_cons_inj {c : CodePoint} {s t u v : Str} (notS : c ∉ s) (notU : c ∉ u)
    (same : s ++ c :: t = u ++ c :: v) : s = u ∧ t = v := by
  have heads := congrArg (List.takeWhile (· ≠ c)) same
  rw [takeWhile_of_not_mem notS, takeWhile_of_not_mem notU] at heads
  subst heads
  exact ⟨rfl, (List.cons.inj (List.append_cancel_left same)).2⟩

theorem hostOf_unclosed {rest : Str} (never : closeBracket ∉ rest) :
    hostOf tables (openBracket :: rest) = [] := by
  have absent : closeBracket ∉ openBracket :: rest := by
    rw [List.mem_cons]
    rintro (same | inside)
    · revert same
      decide
    · exact never inside
  rw [hostOf, if_pos (List.head?_cons ..), if_neg absent]

theorem hostOf_bracket {v6 : Str} (closed : closeBracket ∉ v6) (tail : Str) :
    hostOf tables (openBracket :: v6 ++ closeBracket :: tail) = v6 := by
  have starts : (openBracket :: v6 ++ closeBracket :: tail).head? = some openBracket := rfl
  rw [hostOf, if_pos starts, if_pos (List.mem_append_right _ (List.mem_cons_self ..))]
  exact takeWhile_of_not_mem closed tail

theorem head?_append_colon {h port : Str} (unbracketed : h.head? ≠ some openBracket) :
    (h ++ colon :: port).head? ≠ some openBracket := by
  cases h with
  | nil =>
    rw [List.nil_append, List.head?_cons]
    decide
  | cons c h => exact unbracketed

theorem hostOf_port {h port : Str} (plain : colon ∉ h) (unbracketed : h.head? ≠ some openBracket)
    (digits : isDigits tables port = true) : hostOf tables (h ++ colon :: port) = h := by
  have single : (h ++ colon :: port).count colon = 1 := by
    rw [List.count_append, List.count_cons_self, List.count_eq_zero.mpr plain,
      List.count_eq_zero.mpr (not_colon_of_digits digits)]
  rw [hostOf, if_neg (head?_append_colon unbracketed), if_pos single, dropWhile_of_not_mem plain,
    List.tail_cons, if_pos digits, takeWhile_of_not_mem plain]

theorem hostOf_whole {value : Str} (unbracketed : value.head? ≠ some openBracket)
    (noPort : ∀ h port, value = h ++ colon :: port → isDigits tables port = true → colon ∈ h) :
    hostOf tables value = value := by
  rw [hostOf, if_neg unbracketed]
  split
  next single =>
    split
    next digits =>
      have inside : colon ∈ value := List.count_pos_iff.mp (by omega)
      obtain ⟨h, port, rfl, plain⟩ := split_first inside
      rw [dropWhile_of_not_mem plain] at digits
      exact absurd (noPort h port rfl digits) plain
    next => rfl
  next => rfl

/-! ## Reading a trusted header -/

theorem isIpv6_closed {v6 : Str} (valid : isIpv6 v6 = true) : closeBracket ∉ v6 := by
  intro inside
  rw [isIpv6, Bool.and_eq_true, List.all_eq_true] at valid
  exact of_decide_eq_true (valid.1 _ inside) rfl

/-- A bracketed value is read in one way. -/
theorem HeaderForm.of_bracket {value h v6 tail : Str} (form : HeaderForm value h)
    (shape : value = openBracket :: v6 ++ closeBracket :: tail) (closed : closeBracket ∉ v6) :
    h = v6 ∧ isIpv6 v6 = true ∧ (tail = [] ∨ ∃ port, isPort port = true ∧ tail = colon :: port) := by
  have starts : value.head? = some openBracket := by rw [shape]; rfl
  cases form with
  | host _ given plain unbracketed => exact absurd starts unbracketed
  | hostPort _ port given plain unbracketed decimal =>
    exact absurd starts (head?_append_colon unbracketed)
  | address _ valid =>
    obtain ⟨rfl, same⟩ := append_cons_inj (isIpv6_closed valid) closed (List.cons.inj shape).2
    exact ⟨rfl, valid, .inl same.symm⟩
  | addressPort _ port valid decimal =>
    obtain ⟨rfl, same⟩ := append_cons_inj (isIpv6_closed valid) closed (List.cons.inj shape).2
    exact ⟨rfl, valid, .inr ⟨port, decimal, same.symm⟩⟩

theorem HeaderForm.closes {value h : Str} (form : HeaderForm value h)
    (starts : value.head? = some openBracket) : closeBracket ∈ value := by
  cases form with
  | host _ given plain unbracketed => exact absurd starts unbracketed
  | hostPort _ port given plain unbracketed decimal =>
    exact absurd starts (head?_append_colon unbracketed)
  | address _ valid => exact List.mem_append_right _ (List.mem_cons_self ..)
  | addressPort _ port valid decimal => exact List.mem_append_right _ (List.mem_cons_self ..)

/-- A value in no brackets has a host without colons, and after it a port or nothing. -/
theorem HeaderForm.of_plain {value h : Str} (form : HeaderForm value h)
    (unbracketed : value.head? ≠ some openBracket) :
    h ≠ [] ∧ colon ∉ h ∧ (value = h ∨ ∃ port, isPort port = true ∧ value = h ++ colon :: port) := by
  cases form with
  | host _ given plain _ => exact ⟨given, plain, .inl rfl⟩
  | hostPort _ port given plain _ decimal => exact ⟨given, plain, .inr ⟨port, decimal, rfl⟩⟩
  | address _ valid => exact absurd rfl unbracketed
  | addressPort _ port valid decimal => exact absurd rfl unbracketed

/-- The host is cut out of a trusted header. -/
theorem HeaderForm.hostOf {value h : Str} (form : HeaderForm value h) :
    DecAustrum.hostOf tables value = h := by
  cases form with
  | host _ given plain unbracketed =>
    apply hostOf_whole unbracketed
    rintro before port rfl -
    exact absurd (List.mem_append_right _ (List.mem_cons_self ..)) plain
  | hostPort _ port given plain unbracketed decimal =>
    exact hostOf_port plain unbracketed (isDigits_of_isPort decimal)
  | address _ valid => exact hostOf_bracket (isIpv6_closed valid) []
  | addressPort _ port valid decimal => exact hostOf_bracket (isIpv6_closed valid) (colon :: port)

/-- Every kind of slip passes, and is no trusted header. -/
theorem HostSlip.passes {value : Str} (slip : HostSlip tables patterns value) :
    Meets tables patterns (DecAustrum.hostOf tables value) ∧ ¬ Conforms tables patterns value := by
  cases slip with
  | unclosed rest never meets =>
    refine ⟨by rwa [hostOf_unclosed never], ?_⟩
    rintro ⟨h, form, -⟩
    have closes := form.closes rfl
    rw [List.mem_cons] at closes
    rcases closes with same | inside
    · revert same
      decide
    · exact never inside
  | afterBracket v6 tail closed meets more noPort =>
    refine ⟨by rwa [hostOf_bracket closed], ?_⟩
    rintro ⟨h, form, -⟩
    obtain ⟨-, -, rfl | ⟨port, decimal, rfl⟩⟩ := form.of_bracket rfl closed
    · exact more rfl
    · exact noPort port decimal rfl
  | notAddress v6 tail closed meets invalid =>
    refine ⟨by rwa [hostOf_bracket closed], ?_⟩
    rintro ⟨h, form, -⟩
    obtain ⟨-, valid, -⟩ := form.of_bracket rfl closed
    rw [invalid] at valid
    cases valid
  | unusualDigits h port plain unbracketed meets digits unusual =>
    refine ⟨by rwa [hostOf_port plain unbracketed digits], ?_⟩
    rintro ⟨g, form, -⟩
    obtain ⟨-, plain', same | ⟨port', decimal, same⟩⟩ := form.of_plain (head?_append_colon unbracketed)
    · exact plain' (same ▸ List.mem_append_right _ (List.mem_cons_self ..))
    · obtain ⟨-, rfl⟩ := append_cons_inj plain plain' same
      rw [unusual] at decimal
      cases decimal
  | strayColon _ unbracketed stray noPort meets =>
    refine ⟨by rwa [hostOf_whole unbracketed noPort], ?_⟩
    rintro ⟨h, form, -⟩
    obtain ⟨-, plain, rfl | ⟨port, decimal, same⟩⟩ := form.of_plain unbracketed
    · exact plain stray
    · exact plain (noPort h port same (isDigits_of_isPort decimal))
  | noHost _ portOnly meets =>
    have nothing : colon ∉ ([] : Str) := List.not_mem_nil
    rcases portOnly with rfl | ⟨port, digits, rfl⟩
    · refine ⟨meets, ?_⟩
      rintro ⟨h, form, -⟩
      obtain ⟨given, -, same | ⟨port, -, same⟩⟩ := form.of_plain (by decide)
      · exact given same.symm
      · simp at same
    · refine ⟨?_, ?_⟩
      · rw [show colon :: port = [] ++ colon :: port from rfl,
          hostOf_port nothing (by decide) digits]
        exact meets
      · rintro ⟨h, form, -⟩
        have unbracketed : (colon :: port).head? ≠ some openBracket := by
          rw [List.head?_cons]
          decide
        obtain ⟨given, plain, same | ⟨port', -, same⟩⟩ := form.of_plain unbracketed
        · exact plain (same ▸ List.mem_cons_self ..)
        · exact given (append_cons_inj nothing plain same).1.symm
  | notLabels value h form meets different odd =>
    have unnamed : ¬ Named tables patterns h := fun named => (named_iff h).mp named ⟨different, odd⟩
    refine ⟨by rwa [form.hostOf], ?_⟩
    rintro ⟨g, form', named⟩
    have same : hostOf tables value = h := form.hostOf
    rw [form'.hostOf] at same
    exact unnamed (same ▸ named)

/-- What passes and is of no such kind is a trusted header. -/
theorem conforms_of_passes {value : Str} (meets : Meets tables patterns (hostOf tables value))
    (clean : ¬ HostSlip tables patterns value) : Conforms tables patterns value := by
  have named {h : Str} (form : HeaderForm value h) : Conforms tables patterns value := by
    rw [form.hostOf] at meets
    by_contra not
    have unnamed : ¬ Named tables patterns h := fun named => not ⟨h, form, named⟩
    obtain ⟨different, odd⟩ := not_not.mp (mt (named_iff h).mpr unnamed)
    exact clean (.notLabels value h form meets different odd)
  by_cases bracketed : value.head? = some openBracket
  · obtain ⟨rest, rfl⟩ := List.head?_eq_some_iff.mp bracketed
    by_cases inside : closeBracket ∈ rest
    · obtain ⟨v6, tail, rfl, closed⟩ := split_first inside
      change Meets tables patterns (hostOf tables (openBracket :: v6 ++ closeBracket :: tail)) at meets
      rw [hostOf_bracket closed] at meets
      by_cases valid : isIpv6 v6 = true
      · by_cases more : tail = []
        · subst more
          exact named (.address v6 valid)
        · by_cases port : ∃ port, isPort port = true ∧ tail = colon :: port
          · obtain ⟨port, decimal, rfl⟩ := port
            exact named (.addressPort v6 port valid decimal)
          · exact absurd (.afterBracket v6 tail closed meets more
              fun p decimal same => port ⟨p, decimal, same⟩) clean
      · exact absurd (.notAddress v6 tail closed meets (by simpa using valid)) clean
    · rw [hostOf_unclosed inside] at meets
      exact absurd (.unclosed rest inside meets) clean
  · by_cases port : ∃ h port, value = h ++ colon :: port ∧ isDigits tables port = true ∧ colon ∉ h
    · obtain ⟨h, port, rfl, digits, plain⟩ := port
      by_cases given : h = []
      · subst given
        rw [hostOf_port plain (by decide) digits] at meets
        exact absurd (.noHost _ (.inr ⟨port, digits, rfl⟩) meets) clean
      · have unbracketed : h.head? ≠ some openBracket := by
          obtain ⟨c, h, rfl⟩ := List.exists_cons_of_ne_nil given
          exact bracketed
        by_cases decimal : isPort port = true
        · exact named (.hostPort h port given plain unbracketed decimal)
        · rw [hostOf_port plain unbracketed digits] at meets
          exact absurd (.unusualDigits h port plain unbracketed meets digits (by simpa using decimal))
            clean
    · have noPort : ∀ h port, value = h ++ colon :: port → isDigits tables port = true → colon ∈ h :=
        fun h p same digits => by_contra fun plain => port ⟨h, p, same, digits, plain⟩
      rw [hostOf_whole bracketed noPort] at meets
      by_cases stray : colon ∈ value
      · exact absurd (.strayColon value bracketed stray noPort meets) clean
      · by_cases given : value = []
        · subst given
          exact absurd (.noHost [] (.inl rfl) meets) clean
        · exact named (.host value given stray bracketed)

end

/-- A request passes the host check only with a trusted header, except with headers of the named
kinds. -/
theorem host_check_iff (tables : UnicodeTables) (patterns headers : List Str) :
    (passesHostCheck tables headers patterns = true →
      Conforms tables patterns (normalizedHeader tables (hostHeader headers))) ↔
    ¬ HostSlip tables patterns (normalizedHeader tables (hostHeader headers)) := by
  rw [passesHostCheck, hostAllowed_iff, hostWithoutPort]
  constructor
  · intro only slip
    obtain ⟨meets, not⟩ := slip.passes
    exact not (only meets)
  · exact fun clean meets => conforms_of_passes meets clean

/-! ## A header that passes -/

/-- The characters a header can have: those of Latin-1. -/
def latin1Tables : UnicodeTables where
  lower s := s.map fun c =>
    if (0x41 ≤ c.val ∧ c.val ≤ 0x5a) ∨ (0xc0 ≤ c.val ∧ c.val ≤ 0xde ∧ c.val ≠ 0xd7) then
      Fin.ofNat 0x110000 (c.val + 0x20)
    else c
  digit c := isDigit c || c.val = 0xb2 || c.val = 0xb3 || c.val = 0xb9
  ascii c small := by
    have others : decide (c.val = 0xb2) = false ∧ decide (c.val = 0xb3) = false ∧
        decide (c.val = 0xb9) = false := by
      refine ⟨?_, ?_, ?_⟩ <;> exact decide_eq_false (by omega)
    rw [others.1, others.2.1, others.2.2]
    simp

/-- The default of the settings. -/
def defaultTrustedHosts : List Str := ["localhost", "127.0.0.1", "::1", "testserver"]

theorem text_after_bracket_passes :
    validTrustedHosts defaultTrustedHosts = true ∧
      passesHostCheck latin1Tables ["[::1]evil.example"] defaultTrustedHosts = true ∧
      ¬ Conforms latin1Tables defaultTrustedHosts
        (normalizedHeader latin1Tables (hostHeader ["[::1]evil.example"])) := by
  have meets : Meets latin1Tables defaultTrustedHosts "::1" :=
    (hostAllowed_iff _).mp (by decide)
  have noPort : ∀ port, isPort port = true → ("evil.example" : Str) ≠ colon :: port := by
    intro port _ same
    have first := congrArg List.head? same
    revert first
    rw [List.head?_cons]
    decide
  have slip : HostSlip latin1Tables defaultTrustedHosts
      (openBracket :: ("::1" : Str) ++ closeBracket :: ("evil.example" : Str)) :=
    .afterBracket "::1" "evil.example" (by decide) meets (by decide) noPort
  have shape : normalizedHeader latin1Tables (hostHeader ["[::1]evil.example"]) =
      openBracket :: ("::1" : Str) ++ closeBracket :: ("evil.example" : Str) := by
    decide
  refine ⟨by decide, by decide, ?_⟩
  rw [shape]
  exact slip.passes.2

/-- An empty label in front of a suffix. -/
example : passesHostCheck latin1Tables [".example.com"] ["*.example.com"] = true := by decide

end DecAustrum
