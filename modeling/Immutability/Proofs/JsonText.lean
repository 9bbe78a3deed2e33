import Immutability.Proofs.JsonNotation
import Mathlib.Data.List.Forall2

/-!
# JSON text

Reading the notation of a value gives the value back.

* `Json.stringCodes?_escaped` and `Json.word?_toString` read strings and numbers;
* `Json.tokens` are the tokens of a value, and `Json.Spells` says that some text stands for some
  tokens in front of what follows it; `Json.spelled_pretty` says that the notation of a value stands
  for its tokens;
* `Json.value?_tokens` puts a value together from its tokens, inside any frames;
* `Json.parse?_pretty` is the result.
-/

namespace Immutability.Json

/-! ### Strings -/

theorem hexCode?_digitChar : ∀ n < 0x20,
    hexCode? '0' '0' (Nat.digitChar (n / 16 % 16)) (Nat.digitChar (n % 16)) = some n := by
  decide

theorem stringCodes?_cons {c : Char} (hquote : c ≠ '"') (hslash : c ≠ '\\')
    (hcontrol : ¬ c.toNat < 0x20) (rest : List Char) :
    stringCodes? (c :: rest) = (stringCodes? rest).map fun p => (c.toNat :: p.1, p.2) := by
  rw [stringCodes?]
  · simp only [hcontrol, hslash, or_self, if_false]
    cases stringCodes? rest <;> rfl
  all_goals simp_all

/-- An escaped character is read as its code. -/
theorem stringCodes?_escapeChar (c : Char) (rest : List Char) :
    stringCodes? ((escapeChar c).toList ++ rest) =
      (stringCodes? rest).map fun p => (c.toNat :: p.1, p.2) := by
  unfold escapeChar
  split_ifs with h₁ h₂ h₃ h₄ h₅ h₆ h₇ h₈
  iterate 7
    · subst c
      cases h : stringCodes? rest <;> simp [stringCodes?, escaped?, h]
  · have hcode := hexCode?_digitChar c.toNat h₈
    cases h : stringCodes? rest <;> simp [Text.hexByte, stringCodes?, hcode, h]
  · simpa using stringCodes?_cons h₁ h₂ h₈ rest

theorem stringCodes?_escaped (s : List Char) (rest : List Char) :
    stringCodes? (s.flatMap (fun c => (escapeChar c).toList) ++ '"' :: rest) =
      some (s.map Char.toNat, rest) := by
  induction s with
  | nil => rfl
  | cons c s ih => rw [List.flatMap_cons, List.append_assoc, stringCodes?_escapeChar, ih]; rfl

/-- A character is never one half of a pair of codes. -/
theorem joinCodes?_map_toNat (s : List Char) : joinCodes? (s.map Char.toNat) = some s := by
  induction s with
  | nil => rfl
  | cons c s ih =>
    have hvalid : c.toNat < 0xD800 ∨ 0xDFFF < c.toNat ∧ c.toNat < 0x110000 := c.valid
    have hhigh : ¬ (0xD800 ≤ c.toNat ∧ c.toNat ≤ 0xDBFF) := by omega
    have hlow : ¬ (0xDC00 ≤ c.toNat ∧ c.toNat ≤ 0xDFFF) := by omega
    rw [List.map_cons]
    unfold joinCodes?
    simp only [hhigh, hlow, if_false, ih, Option.map_some, Char.ofNat_toNat]

/-! ### Numbers -/

theorem digit?_of_isDigit {c : Char} (h : c.isDigit = true) :
    digit? c = some (c.toNat - '0'.toNat) := by
  have hrange : '0' ≤ c ∧ c ≤ '9' := by simpa [Char.isDigit, Char.le_def] using h
  rw [digit?, if_pos hrange]

theorem foldlM_digit? {cs : List Char} (h : ∀ c ∈ cs, c.isDigit = true) (n : Nat) :
    cs.foldlM (fun n c => return n * 10 + (← digit? c)) n = some (Nat.ofDigitChars 10 cs n) := by
  induction cs generalizing n with
  | nil => rfl
  | cons c cs ih =>
    have hc := digit?_of_isDigit (h c List.mem_cons_self)
    rw [List.foldlM_cons, Nat.ofDigitChars_cons, Nat.mul_comm 10 n, hc]
    exact ih (fun d hd => h d (List.mem_cons_of_mem _ hd)) _

/-- The digits of a positive number do not begin with a zero. -/
theorem head?_toDigits_ne {n : Nat} (hn : 0 < n) : (Nat.toDigits 10 n).head? ≠ some '0' := by
  induction n using Nat.strongRecOn with
  | ind n ih =>
    by_cases hlt : n < 10
    · rw [Nat.toDigits_of_lt_base hlt]
      simpa using Nat.ne_of_gt hn
    · have hle : 10 ≤ n := by omega
      rw [Nat.toDigits_of_base_le (by decide) hle,
        List.head?_append_of_ne_nil _ Nat.toDigits_ne_nil]
      exact ih (n / 10) (by omega) (by omega)

theorem natural?_toDigits (n : Nat) : natural? (Nat.toDigits 10 n) = some n := by
  have hdigits : ∀ c ∈ Nat.toDigits 10 n, c.isDigit = true := fun c hc =>
    Nat.isDigit_of_mem_toDigits (by decide) (by decide) hc
  have hfold := foldlM_digit? hdigits 0
  rw [Nat.ofDigitChars_toDigits (by decide) (by decide)] at hfold
  rw [← hfold]
  -- the digits are neither missing nor preceded by a zero
  unfold natural?
  split
  · next h => exact absurd h Nat.toDigits_ne_nil
  · next c cs h =>
    have hpos : 0 < n := by
      rcases Nat.eq_zero_or_pos n with rfl | hpos
      · cases h
      · exact hpos
    exact absurd (by rw [h]; rfl) (head?_toDigits_ne hpos)
  · rfl

theorem word?_toDigits (n : Nat) : word? (Nat.toDigits 10 n) = some (num n) := by
  obtain ⟨c, cs, hcs⟩ := List.exists_cons_of_ne_nil (Nat.toDigits_ne_nil (n := n) (b := 10))
  have hc : c.isDigit = true :=
    Nat.isDigit_of_mem_toDigits (by decide) (by decide) (hcs ▸ List.mem_cons_self)
  have hnat := natural?_toDigits n
  rw [hcs] at hnat ⊢
  unfold word?
  split <;> simp_all [Char.isDigit]

theorem word?_neg_toDigits {n : Nat} (hn : 0 < n) :
    word? ('-' :: Nat.toDigits 10 n) = some (num (-n)) := by
  have hnat := natural?_toDigits n
  have hhead := head?_toDigits_ne hn
  unfold word?
  split <;> simp_all

/-- A number is read from its notation. -/
theorem word?_toString (n : Int) : word? (toString n).toList = some (num n) := by
  rw [Int.toString_eq_repr, Int.repr_eq_if]
  split
  · next h =>
    rw [Nat.toList_repr, word?_toDigits, Int.toNat_of_nonneg h]
  · next h =>
    rw [String.toList_append, Nat.toList_repr]
    have hpos : 0 < (-n).toNat := by omega
    have hneg : (((-n).toNat : Nat) : Int) = -n := Int.toNat_of_nonneg (by omega)
    refine (word?_neg_toDigits hpos).trans ?_
    rw [hneg, Int.neg_neg]

/-! ### Text and tokens -/

/-- What follows a word does not continue it. -/
def Delimited (rest : List Char) : Prop := ∀ c ∈ rest.head?, isWordChar c = false

/-- In front of `rest`, the text stands for the tokens. -/
def Spells (cs : List Char) (ts : List Token) (rest : List Char) : Prop :=
  tokens? (cs ++ rest) = (tokens? rest).map (ts ++ ·)

/-- The text stands for the tokens wherever no word goes on behind it. -/
def Spelled (text : String) (ts : List Token) : Prop :=
  ∀ rest, Delimited rest → Spells text.toList ts rest

section Spells

variable {cs cs' rest : List Char} {ts ts' : List Token} {c : Char}

theorem delimited_cons (h : isWordChar c = false) (rest : List Char) : Delimited (c :: rest) := by
  intro d hd
  cases hd
  exact h

theorem Spells.nil (rest : List Char) : Spells [] [] rest := by
  simp [Spells]

theorem Spells.append (h : Spells cs ts (cs' ++ rest)) (h' : Spells cs' ts' rest) :
    Spells (cs ++ cs') (ts ++ ts') rest := by
  unfold Spells at h h' ⊢
  rw [List.append_assoc, h, h']
  cases tokens? rest <;> simp

theorem spells_space (h : isSpace c = true) (rest : List Char) : Spells [c] [] rest := by
  unfold Spells
  rw [List.singleton_append, tokens?]
  simp [h]

theorem spells_spaces (h : ∀ c ∈ cs, isSpace c = true) (rest : List Char) :
    Spells cs [] rest := by
  induction cs with
  | nil => exact .nil rest
  | cons c cs ih =>
    have htail := ih fun d hd => h d (List.mem_cons_of_mem _ hd)
    exact (spells_space (h c List.mem_cons_self) _).append htail

theorem not_isSpace_of_mark? {t : Token} (h : mark? c = some t) :
    isSpace c = false ∧ c ≠ '"' ∧ isWordChar c = false := by
  unfold mark? at h
  split at h <;> first | decide | cases h

theorem spells_mark {t : Token} (h : mark? c = some t) (rest : List Char) :
    Spells [c] [t] rest := by
  obtain ⟨hspace, hquote, -⟩ := not_isSpace_of_mark? h
  unfold Spells
  rw [List.singleton_append, tokens?]
  simp [hspace, hquote, h]

theorem spells_quote (s : String) (rest : List Char) :
    Spells (quote s).toList [.scalar (str s)] rest := by
  have htext : (quote s).toList ++ rest =
      '"' :: (s.toList.flatMap (fun c => (escapeChar c).toList) ++ '"' :: rest) := by
    simp [quote, String.toList_join, List.flatMap_map]
  have hcodes := stringCodes?_escaped s.toList rest
  have hjoin := joinCodes?_map_toNat s.toList
  have hspace : isSpace '"' = false := by decide
  unfold Spells
  rw [htext, tokens?]
  simp only [hspace, Bool.false_eq_true, if_false, if_true]
  split
  · next codes rest' h =>
    rw [hcodes] at h
    cases h
    simp [hjoin]
  · next h =>
    rw [hcodes] at h
    cases h

theorem not_isSpace_of_isWordChar (h : isWordChar c = true) :
    isSpace c = false ∧ c ≠ '"' ∧ mark? c = none := by
  refine ⟨?_, ?_, ?_⟩
  · by_contra hspace
    simp only [isSpace, Bool.not_eq_false, Bool.or_eq_true, beq_iff_eq] at hspace
    rcases hspace with ((rfl | rfl) | rfl) | rfl <;> exact absurd h (by decide)
  · rintro rfl
    exact absurd h (by decide)
  · by_contra hmark
    obtain ⟨t, ht⟩ := Option.ne_none_iff_exists'.1 hmark
    rw [(not_isSpace_of_mark? ht).2.2] at h
    cases h

/-- A word is read as a whole. -/
theorem spells_word {v : Json} (hword : ∀ c ∈ cs, isWordChar c = true) (hv : word? cs = some v)
    (hrest : Delimited rest) : Spells cs [.scalar v] rest := by
  cases cs with
  | nil => cases hv
  | cons c cs =>
    obtain ⟨hspace, hquote, hmark⟩ := not_isSpace_of_isWordChar (hword c List.mem_cons_self)
    have htail : ∀ d ∈ cs, isWordChar d = true := fun d hd => hword d (List.mem_cons_of_mem _ hd)
    have htake : (cs ++ rest).takeWhile isWordChar = cs := by
      rw [List.takeWhile_append_of_pos htail]
      cases rest with
      | nil => simp
      | cons d rest => simp [hrest d rfl]
    have hdrop : (cs ++ rest).dropWhile isWordChar = rest := by
      rw [List.dropWhile_append_of_pos htail]
      cases rest with
      | nil => simp
      | cons d rest => simp [hrest d rfl]
    unfold Spells
    rw [List.cons_append, tokens?]
    simp [hspace, hquote, hmark, hword c List.mem_cons_self, htake, hdrop, hv]

end Spells

/-! ### The tokens of a value -/

/-- Tokens of several items, with commas between them. -/
def separated : List (List Token) → List Token
  | [] => []
  | ts :: tss => ts ++ tss.flatMap (.comma :: ·)

mutual

/-- The tokens of a value. -/
def tokens : Json → List Token
  | null => [.scalar null]
  | bool b => [.scalar (bool b)]
  | num n => [.scalar (num n)]
  | str s => [.scalar (str s)]
  | arr items => .openList :: separated (itemTokens items) ++ [.closeList]
  | obj members => .openObject :: separated (memberTokens members) ++ [.closeObject]

/-- The tokens of the items of a list. -/
def itemTokens : List Json → List (List Token)
  | [] => []
  | v :: vs => tokens v :: itemTokens vs

/-- The tokens of the members of an object. -/
def memberTokens : List (String × Json) → List (List Token)
  | [] => []
  | (key, v) :: ms => (.scalar (str key) :: .colon :: tokens v) :: memberTokens ms

end

theorem isSpace_of_mem_indentation {depth : Nat} {c : Char} (h : c ∈ (indentation depth).toList) :
    isSpace c = true := by
  simp only [indentation, String.toList_ofList, List.mem_replicate] at h
  rw [h.2]
  decide

/-- The separator of items stands for a comma. -/
theorem spells_separator (rest : List Char) : Spells ",\n".toList [.comma] rest :=
  (spells_mark (t := .comma) rfl _).append (spells_space (c := '\n') rfl rest)

/-- Items on lines of their own stand for their tokens, with commas between them. -/
theorem spells_lines {items : List String} {tss : List (List Token)}
    (h : List.Forall₂ Spelled items tss) {rest : List Char} (hrest : Delimited rest) :
    Spells (",\n".intercalate items).toList (separated tss) rest := by
  induction h with
  | nil => exact .nil rest
  | @cons item ts items tss hitem htail ih =>
    cases htail with
    | nil => simpa [separated] using hitem rest hrest
    | @cons item' ts' items tss hitem' htail =>
      have htail := (spells_separator _).append ih
      have hfirst : Spells item.toList ts
          (",\n".toList ++ (",\n".intercalate (item' :: items)).toList ++ rest) :=
        hitem _ (delimited_cons rfl _)
      rw [String.intercalate_cons_of_ne_nil (List.cons_ne_nil _ _), String.toList_append,
        String.toList_append, List.append_assoc]
      simpa [separated] using hfirst.append htail

theorem spelled_bracketed {opening closing : String} {o c : Char} {t t' : Token}
    (hopening : opening.toList = [o]) (hclosing : closing.toList = [c]) (ho : mark? o = some t)
    (hc : mark? c = some t') {items : List String} {tss : List (List Token)}
    (h : List.Forall₂ Spelled items tss) (depth : Nat) :
    Spelled (bracketed depth opening closing items) (t :: separated tss ++ [t']) := by
  intro rest _
  unfold bracketed
  split
  · next hempty =>
    rw [List.isEmpty_iff] at hempty
    subst hempty
    cases h
    rw [String.toList_append, hopening, hclosing]
    exact (spells_mark ho _).append (spells_mark hc rest)
  · -- the blanks in front of an item are no part of it
    have hlines : List.Forall₂ Spelled (items.map fun item => indentation (depth + 1) ++ item)
        tss := by
      refine List.forall₂_map_left_iff.2 (h.imp fun item ts hitem rest hrest => ?_)
      rw [String.toList_append]
      exact (spells_spaces (fun c => isSpace_of_mem_indentation) _).append (hitem rest hrest)
    have hclose : Spells (['\n'] ++ (indentation depth).toList ++ [c]) [t'] rest :=
      ((spells_space rfl _).append (spells_spaces (fun c => isSpace_of_mem_indentation) _)).append
        (spells_mark hc rest)
    have hdelimited : Delimited (['\n'] ++ (indentation depth).toList ++ [c] ++ rest) :=
      delimited_cons rfl _
    have hitems := (spells_lines hlines hdelimited).append hclose
    have hopen : ∀ rest, Spells ([o] ++ ['\n']) [t] rest := fun rest =>
      (spells_mark ho _).append (spells_space rfl rest)
    simpa [hopening, hclosing] using (hopen _).append hitems

/-! ### The notation of a value -/

theorem spelled_word (text : String) {v : Json}
    (hword : ∀ c ∈ text.toList, isWordChar c = true) (hv : word? text.toList = some v) :
    Spelled text [.scalar v] :=
  fun _ hrest => spells_word hword hv hrest

theorem isWordChar_of_isDigit {c : Char} (h : c.isDigit = true) : isWordChar c = true := by
  simp [isWordChar, Char.isAlphanum, h]

theorem isWordChar_of_mem_toString {n : Int} {c : Char} (h : c ∈ (toString n).toList) :
    isWordChar c = true := by
  have hdigit : ∀ m : Nat, c ∈ m.repr.toList → isWordChar c = true := fun m hm =>
    isWordChar_of_isDigit
      (Nat.isDigit_of_mem_toDigits (by decide) (by decide) (Nat.toList_repr ▸ hm))
  rw [Int.toString_eq_repr, Int.repr_eq_if] at h
  split at h
  · exact hdigit _ h
  · rw [String.toList_append] at h
    rcases List.mem_append.1 h with h | h
    · rw [List.mem_singleton.1 h]
      decide
    · exact hdigit _ h

theorem spelled_bool (b : Bool) (depth : Nat) :
    Spelled ((bool b).pretty depth) [.scalar (bool b)] := by
  cases b with
  | true => exact spelled_word "true" (List.all_eq_true.1 rfl) rfl
  | false => exact spelled_word "false" (List.all_eq_true.1 rfl) rfl

mutual

/-- The notation of a value stands for its tokens. -/
theorem spelled_pretty (depth : Nat) (v : Json) : Spelled (v.pretty depth) v.tokens := by
  cases v with
  | null => exact spelled_word "null" (List.all_eq_true.1 rfl) rfl
  | bool b => exact spelled_bool b depth
  | num n => exact spelled_word _ (fun c => isWordChar_of_mem_toString) (word?_toString n)
  | str s => exact fun rest _ => spells_quote s rest
  | arr items =>
    exact spelled_bracketed rfl rfl rfl rfl (spelled_prettyItems (depth + 1) items) depth
  | obj members =>
    exact spelled_bracketed rfl rfl rfl rfl (spelled_prettyMembers (depth + 1) members) depth

theorem spelled_prettyItems (depth : Nat) (vs : List Json) :
    List.Forall₂ Spelled (prettyItems depth vs) (itemTokens vs) := by
  cases vs with
  | nil => exact .nil
  | cons v vs => exact .cons (spelled_pretty depth v) (spelled_prettyItems depth vs)

theorem spelled_prettyMembers (depth : Nat) (ms : List (String × Json)) :
    List.Forall₂ Spelled (prettyMembers depth ms) (memberTokens ms) := by
  cases ms with
  | nil => exact .nil
  | cons m ms =>
    obtain ⟨key, v⟩ := m
    refine .cons (fun rest hrest => ?_) (spelled_prettyMembers depth ms)
    have hcolon : Spells ": ".toList [.colon] ((v.pretty depth).toList ++ rest) :=
      (spells_mark (t := .colon) rfl _).append (spells_space (c := ' ') rfl _)
    have hvalue := spelled_pretty depth v rest hrest
    rw [String.toList_append, String.toList_append, List.append_assoc]
    exact (spells_quote key _).append (hcolon.append hvalue)

end

/-! ### Values from tokens -/

/-- The tokens are not the key of a member with its colon. -/
def NotKey (ts : List Token) : Prop := ∀ key rest, ts ≠ .scalar (str key) :: .colon :: rest

theorem notKey_tokens (v : Json) {t : Token} (ht : t ≠ .colon) (rest : List Token) :
    NotKey (v.tokens ++ t :: rest) := by
  intro key more h
  cases v <;> simp_all [tokens]

theorem notKey_items (v : Json) (vs : List Json) (rest : List Token) :
    NotKey (v.tokens ++ ((itemTokens vs).flatMap (.comma :: ·) ++ .closeList :: rest)) := by
  cases vs with
  | nil => exact notKey_tokens v (by simp) rest
  | cons w vs => exact notKey_tokens v (t := .comma) (by simp) _

/-- A comma in a list is followed by the next item. -/
theorem close?_comma {v : Json} {before : List Json} {stack : List Frame} {ts : List Token}
    (h : NotKey ts) :
    close? v (.list before :: stack) (.comma :: ts) = value? (.list (v :: before) :: stack) ts := by
  unfold close?
  split <;> simp_all [NotKey]

theorem value?_openList {stack : List Frame} {ts : List Token}
    (h : ∀ rest, ts ≠ .closeList :: rest) :
    value? stack (.openList :: ts) = value? (.list [] :: stack) ts := by
  rw [value?]
  simpa using h

theorem tokens_ne_closeList (v : Json) (rest more : List Token) :
    v.tokens ++ rest ≠ .closeList :: more := by
  cases v <;> simp [tokens]

mutual

/-- The tokens of a value make up the value, inside any frames and whatever follows. -/
theorem value?_tokens (v : Json) (stack : List Frame) (rest : List Token) :
    value? stack (v.tokens ++ rest) = close? v stack rest := by
  cases v with
  | null | bool b | num n | str s => simp [tokens, value?]
  | arr items =>
    cases items with
    | nil => simp [tokens, itemTokens, separated, value?]
    | cons v vs =>
      have htokens : (arr (v :: vs)).tokens ++ rest = .openList ::
          (v.tokens ++ ((itemTokens vs).flatMap (.comma :: ·) ++ .closeList :: rest)) := by
        simp [tokens, itemTokens, separated]
      rw [htokens, value?_openList (tokens_ne_closeList v _), value?_tokens v]
      exact close?_items vs v [] stack rest
  | obj members =>
    cases members with
    | nil => simp [tokens, memberTokens, separated, value?]
    | cons m ms =>
      obtain ⟨key, v⟩ := m
      have htokens : (obj ((key, v) :: ms)).tokens ++ rest =
          .openObject :: .scalar (str key) :: .colon ::
            (v.tokens ++ ((memberTokens ms).flatMap (.comma :: ·) ++ .closeObject :: rest)) := by
        simp [tokens, memberTokens, separated]
      rw [htokens, value?, value?_tokens v]
      exact close?_members ms key v [] stack rest

/-- The items of a list behind one that has just been read. -/
theorem close?_items (vs : List Json) (v : Json) (before : List Json) (stack : List Frame)
    (rest : List Token) :
    close? v (.list before :: stack) ((itemTokens vs).flatMap (.comma :: ·) ++ .closeList :: rest) =
      close? (arr (before.reverse ++ v :: vs)) stack rest := by
  cases vs with
  | nil => simp [itemTokens, close?]
  | cons w vs =>
    have htokens : (itemTokens (w :: vs)).flatMap (.comma :: ·) ++ .closeList :: rest =
        .comma :: (w.tokens ++ ((itemTokens vs).flatMap (.comma :: ·) ++ .closeList :: rest)) := by
      simp [itemTokens]
    rw [htokens, close?_comma (notKey_items w vs rest), value?_tokens w,
      close?_items vs w (v :: before)]
    simp

/-- The members of an object behind one that has just been read. -/
theorem close?_members (ms : List (String × Json)) (key : String) (v : Json)
    (before : List (String × Json)) (stack : List Frame) (rest : List Token) :
    close? v (.object before key :: stack)
        ((memberTokens ms).flatMap (.comma :: ·) ++ .closeObject :: rest) =
      close? (obj (before.reverse ++ (key, v) :: ms)) stack rest := by
  cases ms with
  | nil => simp [memberTokens, close?]
  | cons m ms =>
    obtain ⟨key', w⟩ := m
    have htokens : (memberTokens ((key', w) :: ms)).flatMap (.comma :: ·) ++ .closeObject :: rest =
        .comma :: .scalar (str key') :: .colon ::
          (w.tokens ++ ((memberTokens ms).flatMap (.comma :: ·) ++ .closeObject :: rest)) := by
      simp [memberTokens]
    rw [htokens, close?, value?_tokens w, close?_members ms key' w ((key, v) :: before)]
    simp

end

/-- Reading the notation of a value, which may be followed by blanks, gives the value back. -/
theorem parse?_pretty (v : Json) (depth : Nat) {blanks : String}
    (h : ∀ c ∈ blanks.toList, isSpace c = true) : parse? (v.pretty depth ++ blanks) = some v := by
  have hblanks : tokens? blanks.toList = some [] := by
    have hspells := spells_spaces h []
    rw [Spells, List.append_nil, tokens?] at hspells
    exact hspells
  have hdelimited : Delimited blanks.toList := by
    intro c hc
    have hspace := h c (List.mem_of_mem_head? hc)
    by_contra hword
    rw [(not_isSpace_of_isWordChar (by simpa using hword)).1] at hspace
    cases hspace
  have htokens : tokens? (v.pretty depth ++ blanks).toList = some v.tokens := by
    rw [String.toList_append, spelled_pretty depth v _ hdelimited, hblanks]
    simp
  have hvalue := value?_tokens v [] []
  rw [List.append_nil, close?] at hvalue
  rw [parse?, htokens, Option.bind_some, hvalue]
  rfl

end Immutability.Json
