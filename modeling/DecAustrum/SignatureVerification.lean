import DecAustrum.WebhookSignatures

/-!
# Signature verification

The verifier decides as its description says when the header and the secret can be encoded, the
timestamp fits a double, and rounding leaves the difference on the same side of the tolerance. An
accepted signature fixes the timestamp and the payload it was issued for.
-/
namespace DecAustrum

open Python

/-! ## The reference time -/

theorem daysBeforeMonth_le (year : Nat) : ∀ month, daysBeforeMonth year month ≤ 31 * month
  | 0 => Nat.le_refl 0
  | 1 => Nat.zero_le _
  | month + 2 => by
    have earlier := daysBeforeMonth_le year (month + 1)
    have days : daysInMonth year (month + 1) ≤ 31 := by
      unfold daysInMonth
      split
      · split <;> omega
      split <;> omega
    rw [daysBeforeMonth]
    omega

theorem clock_bounds (d : Datetime) : ∃ clock : ℕ, d.clock = clock ∧ clock < 2 ^ 59 := by
  obtain ⟨-, year, -, month, -, day⟩ := d.date
  obtain ⟨hour, minute, second, microsecond⟩ := d.time
  have months := daysBeforeMonth_le d.year d.month
  have monthDays : daysInMonth d.year d.month ≤ 31 := by
    unfold daysInMonth
    split
    · split <;> omega
    split <;> omega
  have total : ((((daysBeforeYear d.year + daysBeforeMonth d.year d.month + d.day) * 24 + d.hour) * 60 +
      d.minute) * 60 + d.second) * 1000000 + d.microsecond < 2 ^ 59 := by
    unfold daysBeforeYear
    omega
  exact ⟨_, rfl, total⟩

/-- Rounding does not pass a power of two. -/
theorem abs_nearest_le {q : ℚ} {n : ℕ} (bound : |q| < 2 ^ n) : |Double.nearest q| ≤ 2 ^ n := by
  by_cases nonzero : q = 0
  · rw [nonzero, Double.nearest, zero_div]
    simp [Double.roundEven]
  have base : (1 : ℚ) < 2 := by norm_num
  have positive : (0 : ℚ) < 2 ^ Double.lastBit q := zpow_pos (by norm_num) _
  have significand : (|(Double.roundEven (q / 2 ^ Double.lastBit q) : ℚ)|) ≤ 2 ^ 53 := by
    exact_mod_cast Double.abs_significand_le q
  have exponent : Double.lastBit q + 53 ≤ n := by
    have log := (zpow_lt_zpow_iff_right₀ base).mp
      ((Double.zpow_log_le nonzero).trans_lt (by simpa using bound : |q| < 2 ^ (n : ℤ)))
    rw [Double.lastBit]
    omega
  rw [Double.nearest, abs_mul, abs_of_pos positive]
  calc (|(Double.roundEven (q / 2 ^ Double.lastBit q) : ℚ)|) * 2 ^ Double.lastBit q
      ≤ 2 ^ (53 : ℤ) * 2 ^ Double.lastBit q := by
        apply mul_le_mul_of_nonneg_right _ positive.le
        exact_mod_cast significand
    _ = 2 ^ (Double.lastBit q + 53) := by rw [add_comm, zpow_add₀ (by norm_num : (2 : ℚ) ≠ 0)]
    _ ≤ 2 ^ (n : ℤ) := zpow_le_zpow_right₀ base.le exponent
    _ = 2 ^ n := zpow_natCast _ _

/-- Every clock value of a datetime is rounded to a double. -/
theorem posixSeconds_fits {d : Datetime} {micros : Instant} (read : posixMicroseconds d = some micros) :
    ∃ seconds, Double.ofRat (posixSeconds micros) = some seconds := by
  rw [posixMicroseconds, Option.map_eq_some_iff] at read
  obtain ⟨offset, zone, rfl⟩ := read
  have day := d.zone offset zone
  obtain ⟨clock, reading, below⟩ := clock_bounds d
  rw [reading]
  have small : |posixSeconds (clock - offset * 60000000 - epochClock)| < 2 ^ 60 := by
    have micros : |(clock : ℤ) - offset * 60000000 - epochClock| < 2 ^ 60 := by
      rw [abs_lt]
      unfold epochClock
      omega
    rw [posixSeconds, abs_div]
    have whole : |((clock - offset * 60000000 - epochClock : ℤ) : ℚ)| < 2 ^ 60 := by
      exact_mod_cast micros
    calc |((clock - offset * 60000000 - epochClock : ℤ) : ℚ)| / |1000000|
        ≤ |((clock - offset * 60000000 - epochClock : ℤ) : ℚ)| := div_le_self (abs_nonneg _) (by norm_num)
      _ < 2 ^ 60 := whole
  have finite : |Double.nearest (posixSeconds (clock - offset * 60000000 - epochClock))| <
      2 ^ (1024 : ℤ) := by
    apply (abs_nearest_le small).trans_lt
    rw [← zpow_natCast]
    exact zpow_lt_zpow_right₀ (by norm_num) (by norm_num)
  exact ⟨_, dif_pos finite⟩

/-! ## Framing -/

theorem hexText_ascii (data : Bytes) : IsAscii (hexText data) := by
  intro c member
  obtain ⟨b, -, digit⟩ := List.mem_flatMap.mp member
  have plain := isPlain_padded 16 2 b.toNat (by decide) c digit
  simp only [isPlain, Bool.and_eq_true, decide_eq_true_eq] at plain
  omega

theorem hexText_inj : ∀ a b : Bytes, hexText a = hexText b → a = b
  | [], [], _ => rfl
  | [], y :: b, same => by
    have length := congrArg List.length same
    simp only [hexText, List.flatMap_nil, List.flatMap_cons, List.length_append, padded_length,
      List.length_nil] at length
    omega
  | x :: a, [], same => by
    have length := congrArg List.length same
    simp only [hexText, List.flatMap_nil, List.flatMap_cons, List.length_append, padded_length,
      List.length_nil] at length
    omega
  | x :: a, y :: b, same => by
    obtain ⟨first, rest⟩ := List.append_inj same (by simp)
    have bytes := padded_inj 16 2 _ _ (by decide) x.toNat_lt y.toNat_lt first
    rw [UInt8.toNat_inj.mp bytes, hexText_inj a b rest]

theorem intText_char (n : Int) : ∀ c ∈ Json.intText n, isDigit c = true ∨ c = 0x2d := by
  intro c member
  unfold Json.intText at member
  split at member
  · rcases List.mem_cons.mp member with rfl | digit
    · exact .inr rfl
    · exact .inl (isDigit_decimal _ c digit)
  · exact .inl (isDigit_decimal _ c member)

theorem intText_ascii (n : Int) : IsAscii (Json.intText n) := by
  intro c member
  rcases intText_char n c member with digit | rfl
  · simp only [isDigit, Bool.and_eq_true, decide_eq_true_eq] at digit
    omega
  · decide

theorem intText_inj {m n : Int} (same : Json.intText m = Json.intText n) : m = n := by
  have apart (k l : Nat) : (0x2d : CodePoint) :: decimal k ≠ decimal l := by
    intro opened
    have digit := isDigit_decimal l 0x2d (by rw [← opened]; exact List.mem_cons_self ..)
    exact absurd digit (by decide)
  have numbers {k l : Nat} (texts : decimal k = decimal l) : k = l := by
    rw [← decimalValue_decimal k, texts, decimalValue_decimal]
  unfold Json.intText at same
  split at same
  · split at same
    · have natAbs := numbers (List.cons.inj same).2
      omega
    · exact absurd same (apart _ _)
  · split at same
    · exact absurd same.symm (apart _ _)
    · have natAbs := numbers same
      omega

theorem encodeAscii_spec {text : Str} {bytes : Bytes} (written : encodeAscii text = some bytes) :
    IsAscii text ∧ bytes = text.map fun c => UInt8.ofNat c.val := by
  refine ⟨isAscii_of_encodeAscii written, ?_⟩
  unfold encodeAscii at written
  split at written
  · exact (Option.some.inj written).symm
  · cases written

theorem byte_inj {c d : CodePoint} (cAscii : c.val < 128) (dAscii : d.val < 128)
    (same : UInt8.ofNat c.val = UInt8.ofNat d.val) : c = d := by
  have values := congrArg UInt8.toNat same
  rw [UInt8.toNat_ofNat', UInt8.toNat_ofNat', Nat.mod_eq_of_lt (by omega),
    Nat.mod_eq_of_lt (by omega)] at values
  exact Fin.ext values

theorem encodeAscii_inj : ∀ {a b : Str} {bytes : Bytes}, encodeAscii a = some bytes →
    encodeAscii b = some bytes → a = b := by
  intro a b bytes first second
  obtain ⟨aAscii, rfl⟩ := encodeAscii_spec first
  obtain ⟨bAscii, same⟩ := encodeAscii_spec second
  clear first second
  induction a generalizing b with
  | nil =>
    cases b with
    | nil => rfl
    | cons d b => cases same
  | cons c a ih =>
    cases b with
    | nil => cases same
    | cons d b =>
      rw [List.map_cons, List.map_cons, List.cons.injEq] at same
      rw [byte_inj (aAscii c (by simp)) (bAscii d (by simp)) same.1,
        ih (fun e later => aAscii e (by simp [later])) (fun e later => bAscii e (by simp [later])) same.2]

/-- A timestamp holds no dot. -/
theorem dot_not_mem_stamp {n : Int} {stamp : Bytes}
    (written : encodeAscii (Json.intText n) = some stamp) : (0x2e : UInt8) ∉ stamp := by
  obtain ⟨ascii, rfl⟩ := encodeAscii_spec written
  intro member
  obtain ⟨c, inside, byte⟩ := List.mem_map.mp member
  obtain rfl : c = 0x2e := byte_inj (ascii c inside) (by decide) byte
  rcases intText_char n 0x2e inside with digit | sign
  · exact absurd digit (by decide)
  · exact absurd sign (by decide)

/-- The first separator ends the part in front of it. -/
theorem frame_inj {α : Type} {separator : α} {a b rest other : List α} (aClean : separator ∉ a)
    (bClean : separator ∉ b) (same : a ++ separator :: rest = b ++ separator :: other) :
    a = b ∧ rest = other := by
  induction a generalizing b with
  | nil =>
    cases b with
    | nil => exact ⟨rfl, (List.cons.inj same).2⟩
    | cons d b => exact absurd (List.cons.inj same).1 fun equal => bClean (by simp [equal])
  | cons c a ih =>
    cases b with
    | nil => exact absurd (List.cons.inj same).1 fun equal => aClean (by simp [equal])
    | cons d b =>
      obtain ⟨first, later⟩ := List.cons.inj same
      obtain ⟨fronts, rests⟩ := ih (fun inside => aClean (List.mem_cons_of_mem _ inside))
        (fun inside => bClean (List.mem_cons_of_mem _ inside)) later
      exact ⟨by rw [first, fronts], rests⟩

variable {hmac : Bytes → Bytes → Bytes}

theorem signWebhookPayload_eq_ok_iff {payload : Bytes} {n : Int} {secret signature : Str} :
    signWebhookPayload hmac payload n secret = .ok signature ↔ Json.withinDigitLimit n = true ∧
      ∃ stamp key, encodeAscii (Json.intText n) = some stamp ∧ encodeUtf8 secret = some key ∧
        signature = "v1=" ++ hexText (hmac key (stamp ++ 0x2e :: payload)) := by
  unfold signWebhookPayload intStr
  by_cases printable : Json.withinDigitLimit n = true
  · simp only [printable, if_true, bind_eq_ok, Except.ok.injEq, orRaise_eq_ok, exists_eq_left', true_and,
      pure, Except.pure]
    constructor
    · rintro ⟨stamp, stamped, key, keyed, rfl⟩
      exact ⟨stamp, key, stamped, keyed, rfl⟩
    · rintro ⟨stamp, key, stamped, keyed, rfl⟩
      exact ⟨stamp, stamped, key, keyed, rfl⟩
  · simp [printable, bind, Except.bind]

/-- One signature under one secret is of one timestamp and one payload. -/
theorem signWebhookPayload_inj (collisionFree : ∀ key, Function.Injective (hmac key))
    {payload other : Bytes} {m n : Int} {secret signature : Str}
    (first : signWebhookPayload hmac payload m secret = .ok signature)
    (second : signWebhookPayload hmac other n secret = .ok signature) : m = n ∧ payload = other := by
  obtain ⟨-, stamp, key, stamped, keyed, rfl⟩ := signWebhookPayload_eq_ok_iff.mp first
  obtain ⟨-, stampOther, keyOther, stampedOther, keyedOther, same⟩ :=
    signWebhookPayload_eq_ok_iff.mp second
  obtain rfl : key = keyOther := Option.some.inj (keyed.symm.trans keyedOther)
  have framed := collisionFree key (hexText_inj _ _ (List.append_cancel_left same))
  obtain ⟨stamps, payloads⟩ := frame_inj (dot_not_mem_stamp stamped) (dot_not_mem_stamp stampedOther)
    framed
  rw [← stamps] at stampedOther
  exact ⟨intText_inj (encodeAscii_inj stamped stampedOther), payloads⟩

/-! ## Exact verification -/

/-- The timestamp is no further from the reference time than the tolerance. -/
def WithinTolerance (reference : Datetime) (timestamp : Int) (tolerance : ℕ) : Prop :=
  ∃ micros, posixMicroseconds reference = some micros ∧ |posixSeconds micros - timestamp| ≤ tolerance

/-- The same of the difference in double precision. -/
def RoundedWithin (reference : Datetime) (timestamp : Int) (tolerance : ℕ) : Prop :=
  ∃ micros seconds stamp, posixMicroseconds reference = some micros ∧
    Double.ofRat (posixSeconds micros) = some seconds ∧ Double.ofInt timestamp = some stamp ∧
    exceeds (seconds.sub stamp) tolerance = false

/-- The verifier answers, and accepts a signature if and only if its timestamp is within the
tolerance and it is the one of the payload. -/
def VerifiesExactly (hmac : Bytes → Bytes → Bytes) (reference : Datetime) (payload : Bytes)
    (timestamp signature secret : Str) (tolerance : ℕ) (answer : Except PyExc Bool) : Prop :=
  ∃ accepted, answer = .ok accepted ∧ (accepted = true ↔ ∃ n, readInteger timestamp = some n ∧
    WithinTolerance reference n tolerance ∧ signWebhookPayload hmac payload n secret = .ok signature)

/-- The verifier accepts a signature for no timestamp and payload but those it was issued for. -/
def BindsSignature (hmac : Bytes → Bytes → Bytes) (payload : Bytes) (timestamp signature secret : Str)
    (answer : Except PyExc Bool) : Prop :=
  ∀ issuedFor n, signWebhookPayload hmac issuedFor n secret = .ok signature → answer = .ok true →
    readInteger timestamp = some n ∧ payload = issuedFor

/-- What the interpreter has to be able to do with a timestamp. -/
structure Verifiable (hmac : Bytes → Bytes → Bytes) (reference : Datetime) (payload : Bytes) (n : Int)
    (signature secret : Str) (tolerance : ℕ) : Prop where
  zoned : reference.offset ≠ none
  fits : ∃ stamp, Double.ofInt n = some stamp
  encodable : RoundedWithin reference n tolerance → IsScalar secret ∧ IsAscii signature
  rounding : signWebhookPayload hmac payload n secret = .ok signature →
    (RoundedWithin reference n tolerance ↔ WithinTolerance reference n tolerance)

section Answers

variable {current : Datetime} {payload : Bytes} {timestamp signature secret : Str}
  {now : Option Datetime} {tolerance : ℕ} {n : Int}

theorem verify_unreadable (read : readInteger timestamp = none) :
    verifyWebhookSignature hmac current payload (.text timestamp) signature secret now tolerance =
      .ok false := by
  unfold verifyWebhookSignature
  rw [WebhookTimestamp.read, read]

theorem verify_naive (read : readInteger timestamp = some n) (naive : (now.getD current).offset = none) :
    verifyWebhookSignature hmac current payload (.text timestamp) signature secret now tolerance =
      .error .valueError := by
  unfold verifyWebhookSignature
  rw [WebhookTimestamp.read, read]
  simp only [posixMicroseconds, naive, Option.map_none]

theorem zone_read (zoned : (now.getD current).offset ≠ none) :
    ∃ micros seconds, posixMicroseconds (now.getD current) = some micros ∧
      Double.ofRat (posixSeconds micros) = some seconds := by
  obtain ⟨offset, zone⟩ := Option.ne_none_iff_exists'.mp zoned
  have read : posixMicroseconds (now.getD current) =
      some ((now.getD current).clock - offset * 60000000 - epochClock) := by
    rw [posixMicroseconds, zone, Option.map_some]
  obtain ⟨seconds, rounded⟩ := posixSeconds_fits read
  exact ⟨_, seconds, read, rounded⟩

/-- The steps of the verifier once the timestamp and the reference time are read. -/
theorem verify_read {micros : Instant} {seconds : Double} (read : readInteger timestamp = some n)
    (zone : posixMicroseconds (now.getD current) = some micros)
    (rounded : Double.ofRat (posixSeconds micros) = some seconds) :
    verifyWebhookSignature hmac current payload (.text timestamp) signature secret now tolerance =
      orRaise .overflowError (Double.ofInt n) >>= fun stamp =>
        if exceeds (seconds.sub stamp) tolerance then .ok false
        else signWebhookPayload hmac payload n secret >>= fun expected =>
          EvidenceStore.compareDigest expected signature := by
  have nonnegative : ¬ (tolerance : ℤ) < 0 := by omega
  unfold verifyWebhookSignature
  rw [WebhookTimestamp.read, read]
  simp only [zone, rounded, orRaise, if_neg nonnegative]
  rfl

theorem verify_overflow (read : readInteger timestamp = some n)
    (zoned : (now.getD current).offset ≠ none) (large : Double.ofInt n = none) :
    verifyWebhookSignature hmac current payload (.text timestamp) signature secret now tolerance =
      .error .overflowError := by
  obtain ⟨micros, seconds, zone, rounded⟩ := zone_read zoned
  rw [verify_read read zone rounded, large]
  rfl

theorem verify_outside (read : readInteger timestamp = some n)
    (zoned : (now.getD current).offset ≠ none) (fits : ∃ stamp, Double.ofInt n = some stamp)
    (outside : ¬ RoundedWithin (now.getD current) n tolerance) :
    verifyWebhookSignature hmac current payload (.text timestamp) signature secret now tolerance =
      .ok false := by
  obtain ⟨micros, seconds, zone, rounded⟩ := zone_read zoned
  obtain ⟨stamp, fits⟩ := fits
  have beyond : exceeds (seconds.sub stamp) tolerance = true := by
    by_contra inside
    rw [Bool.not_eq_true] at inside
    exact outside ⟨micros, seconds, stamp, zone, rounded, fits, inside⟩
  rw [verify_read read zone rounded, fits]
  simp only [orRaise, bind, Except.bind, beyond, if_true]

theorem verify_within (read : readInteger timestamp = some n)
    (within : RoundedWithin (now.getD current) n tolerance) :
    verifyWebhookSignature hmac current payload (.text timestamp) signature secret now tolerance =
      signWebhookPayload hmac payload n secret >>= fun expected =>
        EvidenceStore.compareDigest expected signature := by
  obtain ⟨micros, seconds, stamp, zone, rounded, fits, inside⟩ := within
  rw [verify_read read zone rounded, fits]
  simp only [orRaise, bind, Except.bind, inside, Bool.false_eq_true, if_false]

theorem signWebhookPayload_total (read : readInteger timestamp = some n) (scalar : IsScalar secret) :
    ∃ expected, signWebhookPayload hmac payload n secret = .ok expected ∧ IsAscii expected := by
  obtain ⟨stamp, stamped⟩ := encodeAscii_of_isAscii (intText_ascii n)
  obtain ⟨key, keyed⟩ : ∃ key, encodeUtf8 secret = some key :=
    ⟨_, if_neg (by simpa [IsScalar] using scalar)⟩
  refine ⟨_, signWebhookPayload_eq_ok_iff.mpr
    ⟨withinDigitLimit_of_readInteger read, stamp, key, stamped, keyed, rfl⟩, ?_⟩
  intro c member
  rcases List.mem_append.mp member with version | digest
  · have ascii : (ofString "v1=").all (fun c => c.val < 128) = true := by decide
    simpa using List.all_eq_true.mp ascii c version
  · exact hexText_ascii _ c digest

/-- What an accepted signature has been checked for. -/
theorem verify_accepted
    (accepted : verifyWebhookSignature hmac current payload (.text timestamp) signature secret now
      tolerance = .ok true) :
    ∃ n, readInteger timestamp = some n ∧ RoundedWithin (now.getD current) n tolerance ∧
      signWebhookPayload hmac payload n secret = .ok signature := by
  cases read : readInteger timestamp with
  | none =>
    rw [verify_unreadable read] at accepted
    cases accepted
  | some n =>
    refine ⟨n, rfl, ?_⟩
    by_cases zoned : (now.getD current).offset = none
    · rw [verify_naive read zoned] at accepted
      cases accepted
    by_cases within : RoundedWithin (now.getD current) n tolerance
    · rw [verify_within read within, bind_eq_ok] at accepted
      obtain ⟨expected, signed, compared⟩ := accepted
      have same := (compareDigest_ok compared).2
      rw [signed, of_decide_eq_true same.symm]
      exact ⟨within, rfl⟩
    cases fits : Double.ofInt n with
    | none =>
      rw [verify_overflow read zoned fits] at accepted
      cases accepted
    | some stamp =>
      rw [verify_outside read zoned ⟨stamp, fits⟩ within] at accepted
      cases accepted

theorem verify_binds (collisionFree : ∀ key, Function.Injective (hmac key)) :
    BindsSignature hmac payload timestamp signature secret
      (verifyWebhookSignature hmac current payload (.text timestamp) signature secret now tolerance) := by
  intro issuedFor m issued accepted
  obtain ⟨n, read, -, signed⟩ := verify_accepted accepted
  obtain ⟨rfl, payloads⟩ := signWebhookPayload_inj collisionFree signed issued
  exact ⟨read, payloads⟩

theorem verifiable_of_exact (read : readInteger timestamp = some n)
    (exact : VerifiesExactly hmac (now.getD current) payload timestamp signature secret tolerance
      (verifyWebhookSignature hmac current payload (.text timestamp) signature secret now tolerance)) :
    Verifiable hmac (now.getD current) payload n signature secret tolerance := by
  obtain ⟨accepted, answered, decides⟩ := exact
  have zoned : (now.getD current).offset ≠ none := by
    intro naive
    rw [verify_naive read naive] at answered
    cases answered
  have fits : ∃ stamp, Double.ofInt n = some stamp := by
    cases large : Double.ofInt n with
    | none =>
      rw [verify_overflow read zoned large] at answered
      cases answered
    | some stamp => exact ⟨stamp, rfl⟩
  refine ⟨zoned, fits, ?_, ?_⟩
  · intro within
    rw [verify_within read within, bind_eq_ok] at answered
    obtain ⟨expected, signed, compared⟩ := answered
    obtain ⟨-, stamp, key, -, keyed, -⟩ := signWebhookPayload_eq_ok_iff.mp signed
    refine ⟨?_, (compareDigest_ok compared).1⟩
    unfold encodeUtf8 at keyed
    split at keyed
    · cases keyed
    · next scalar => simpa [IsScalar] using scalar
  · intro genuine
    constructor
    · intro within
      rw [verify_within read within, genuine] at answered
      have same := (compareDigest_ok answered).2
      obtain ⟨m, again, inside, -⟩ := decides.mp (by simp [same])
      rw [read, Option.some.injEq] at again
      rwa [again]
    · intro inside
      have yes := decides.mpr ⟨n, read, inside, genuine⟩
      rw [yes] at answered
      obtain ⟨m, again, within, -⟩ := verify_accepted answered
      rw [read, Option.some.injEq] at again
      rwa [again]

theorem exact_of_verifiable
    (verifiable : ∀ n, readInteger timestamp = some n →
      Verifiable hmac (now.getD current) payload n signature secret tolerance) :
    VerifiesExactly hmac (now.getD current) payload timestamp signature secret tolerance
      (verifyWebhookSignature hmac current payload (.text timestamp) signature secret now tolerance) := by
  cases read : readInteger timestamp with
  | none =>
    refine ⟨false, verify_unreadable read, iff_of_false (by decide) ?_⟩
    rintro ⟨n, again, -⟩
    rw [read] at again
    cases again
  | some n =>
    have able := verifiable n read
    by_cases within : RoundedWithin (now.getD current) n tolerance
    · obtain ⟨scalar, ascii⟩ := able.encodable within
      obtain ⟨expected, signed, expectedAscii⟩ :=
        @signWebhookPayload_total hmac payload timestamp secret n read scalar
      refine ⟨decide (expected = signature), ?_, ?_⟩
      · rw [verify_within read within, signed]
        exact compareDigest_ascii expectedAscii ascii
      · rw [decide_eq_true_eq]
        constructor
        · rintro rfl
          exact ⟨n, read, (able.rounding signed).mp within, signed⟩
        · rintro ⟨m, again, -, genuine⟩
          rw [read, Option.some.injEq] at again
          subst again
          exact Except.ok.inj (signed.symm.trans genuine)
    · refine ⟨false, verify_outside read able.zoned able.fits within, iff_of_false (by decide) ?_⟩
      rintro ⟨m, again, inside, genuine⟩
      rw [read, Option.some.injEq] at again
      subst again
      exact within ((able.rounding genuine).mpr inside)

end Answers

theorem webhook_verification_iff (hmac : Bytes → Bytes → Bytes)
    (collisionFree : ∀ key, Function.Injective (hmac key)) (current : Datetime) (payload : Bytes)
    (timestamp signature secret : Str) (now : Option Datetime) (tolerance : ℕ) :
    (VerifiesExactly hmac (now.getD current) payload timestamp signature secret tolerance
        (verifyWebhookSignature hmac current payload (.text timestamp) signature secret now tolerance) ∧
      BindsSignature hmac payload timestamp signature secret
        (verifyWebhookSignature hmac current payload (.text timestamp) signature secret now tolerance)) ↔
      ∀ n, readInteger timestamp = some n →
        Verifiable hmac (now.getD current) payload n signature secret tolerance := by
  constructor
  · rintro ⟨exact, -⟩ n read
    exact verifiable_of_exact read exact
  · intro verifiable
    exact ⟨exact_of_verifiable verifiable, verify_binds collisionFree⟩

/-! ## One signature -/

/-- Whole seconds of 53 bits are compared as they are. -/
theorem on_time {reference : Datetime} {micros : Instant} {n : ℤ} (tolerance : ℕ)
    (zone : posixMicroseconds reference = some micros) (same : posixSeconds micros = n)
    (small : |n| < 2 ^ 53) :
    RoundedWithin reference n tolerance ∧ WithinTolerance reference n tolerance := by
  have double : IsDouble n := Double.isDouble_intCast small
  have none : IsDouble ((0 : ℤ) : ℚ) := Double.isDouble_intCast (by norm_num)
  constructor
  · refine ⟨micros, ⟨n, double⟩, ⟨n, double⟩, zone, ?_, Double.ofRat_of_isDouble double, ?_⟩
    · rw [same]
      exact Double.ofRat_of_isDouble double
    · have difference : Double.sub ⟨n, double⟩ ⟨n, double⟩ = some ⟨((0 : ℤ) : ℚ), none⟩ := by
        rw [Double.sub, ← Double.ofRat_of_isDouble none]
        simp
      rw [difference]
      simp [exceeds]
  · refine ⟨micros, zone, ?_⟩
    rw [same, sub_self, abs_zero]
    exact Nat.cast_nonneg tolerance

def sampleReference : Datetime :=
  ⟨2023, 11, 14, 22, 13, 20, 0, some 0, by decide, by decide, utcOffset_valid⟩

def sampleSigningSecret : Str := "whsec_0123456789abcdefghijklmnopqrstuv"

/-- The signed bytes of `{}` at 1700000000. -/
def sampleMessage : Bytes :=
  [0x31, 0x37, 0x30, 0x30, 0x30, 0x30, 0x30, 0x30, 0x30, 0x30, 0x2e, 0x7b, 0x7d]

def sampleWebhookDigest : Bytes :=
  [223, 201, 85, 57, 134, 48, 121, 228, 70, 130, 67, 18, 82, 33, 226, 180, 235, 117, 80, 79, 112, 87,
    227, 231, 50, 101, 132, 162, 139, 153, 228, 41]

/-- The digest of the sample under every key, and longer texts that tell all other messages apart. -/
def sampleWebhookHmac (_ message : Bytes) : Bytes :=
  if message = sampleMessage then sampleWebhookDigest else message ++ List.replicate 33 0

theorem sampleWebhookHmac_injective (key : Bytes) : Function.Injective (sampleWebhookHmac key) := by
  have longer (message : Bytes) : message ++ List.replicate 33 0 ≠ sampleWebhookDigest := by
    intro same
    have length := congrArg List.length same
    simp only [List.length_append, List.length_replicate, sampleWebhookDigest, List.length_cons,
      List.length_nil] at length
    omega
  intro a b same
  unfold sampleWebhookHmac at same
  by_cases aSample : a = sampleMessage
  · by_cases bSample : b = sampleMessage
    · rw [aSample, bSample]
    · rw [if_pos aSample, if_neg bSample] at same
      exact absurd same.symm (longer b)
  · by_cases bSample : b = sampleMessage
    · rw [if_neg aSample, if_pos bSample] at same
      exact absurd same (longer a)
    · rw [if_neg aSample, if_neg bSample] at same
      exact List.append_cancel_right same

theorem sampleReference_on_time : RoundedWithin sampleReference 1700000000 300 ∧
    WithinTolerance sampleReference 1700000000 300 := by
  have zone : posixMicroseconds sampleReference = some 1700000000000000 := by decide +kernel
  exact on_time 300 zone (by norm_num [posixSeconds]) (by norm_num)

theorem sampleTimestamp_read : readInteger "1700000000" = some 1700000000 := by decide +kernel

def sampleWebhookSignature : Str :=
  "v1=dfc95539863079e4468243125221e2b4eb75504f7057e3e7326584a28b99e429"

theorem sampleWebhookSignature_signed :
    signWebhookPayload sampleWebhookHmac [0x7b, 0x7d] 1700000000 sampleSigningSecret =
      .ok sampleWebhookSignature := by
  decide +kernel

theorem webhook_verification_sample :
    VerifiesExactly sampleWebhookHmac sampleReference [0x7b, 0x7d] "1700000000" sampleWebhookSignature
        sampleSigningSecret 300 (verifyWebhookSignature sampleWebhookHmac sampleReference [0x7b, 0x7d]
          (.text "1700000000") sampleWebhookSignature sampleSigningSecret none 300) ∧
      BindsSignature sampleWebhookHmac [0x7b, 0x7d] "1700000000" sampleWebhookSignature
        sampleSigningSecret (verifyWebhookSignature sampleWebhookHmac sampleReference [0x7b, 0x7d]
          (.text "1700000000") sampleWebhookSignature sampleSigningSecret none 300) := by
  refine (webhook_verification_iff sampleWebhookHmac sampleWebhookHmac_injective sampleReference
    [0x7b, 0x7d] "1700000000" sampleWebhookSignature sampleSigningSecret none 300).mpr ?_
  intro n read
  rw [sampleTimestamp_read, Option.some.injEq] at read
  subst read
  refine ⟨by decide, ⟨_, Double.ofRat_of_isDouble (Double.isDouble_intCast (by norm_num))⟩, ?_, ?_⟩
  · intro _
    have scalar : sampleSigningSecret.any isSurrogate = false := by decide
    have ascii : sampleWebhookSignature.all (fun c => c.val < 128) = true := by decide +kernel
    exact ⟨by simpa [IsScalar] using scalar, by simpa [IsAscii] using ascii⟩
  · intro _
    exact iff_of_true sampleReference_on_time.1 sampleReference_on_time.2

/-- A header with a character above ASCII raises where the signature should be refused. -/
theorem foreign_signature_raises :
    verifyWebhookSignature sampleWebhookHmac sampleReference [0x7b, 0x7d] (.text "1700000000") [0xe9]
        sampleSigningSecret none 300 = .error .typeError ∧
      ¬ VerifiesExactly sampleWebhookHmac sampleReference [0x7b, 0x7d] "1700000000" [0xe9]
        sampleSigningSecret 300 (verifyWebhookSignature sampleWebhookHmac sampleReference [0x7b, 0x7d]
          (.text "1700000000") [0xe9] sampleSigningSecret none 300) := by
  have raised : verifyWebhookSignature sampleWebhookHmac sampleReference [0x7b, 0x7d]
      (.text "1700000000") [0xe9] sampleSigningSecret none 300 = .error .typeError := by
    have steps := @verify_within sampleWebhookHmac sampleReference [0x7b, 0x7d] "1700000000" [0xe9]
      sampleSigningSecret none 300 1700000000 sampleTimestamp_read sampleReference_on_time.1
    rw [sampleWebhookSignature_signed] at steps
    exact steps
  refine ⟨raised, ?_⟩
  rintro ⟨accepted, answered, -⟩
  rw [raised] at answered
  cases answered

end DecAustrum
