import Immutability.Descriptor
import Immutability.Proofs.Steps
import Mathlib.Data.List.TakeWhile
import Mathlib.Data.Set.Subsingleton

/-!
# The grammar of descriptors

A descriptor is accepted exactly if the grammar derives it, and it is then read as the type that the
grammar gives it.

* `FieldType.Denotes` is the grammar of the descriptors of types, and `Signature.Denotes` that of the
  descriptors of methods;
* `FieldType.scan_append` and `FieldType.denotes_of_scan` say that scanning takes exactly one
  descriptor off a text, whatever follows it, so that descriptors in a row can be told apart
  (`FieldType.eq_of_flatten_eq`);
* `descriptors_exact` is the result for both parsers;
* `Signature.parse_composed_iff` says which descriptors can be put together to that of a method: no
  class name among the parameters may have a closing parenthesis.
-/

namespace Immutability

section Split

variable {p : Char → Bool} {c : Char} {cs rest : List Char}

theorem takeWhile_append_eq (inside : ∀ c ∈ cs, p c = true)
    (boundary : ∀ c ∈ rest.head?, p c = false) : (cs ++ rest).takeWhile p = cs := by
  rw [List.takeWhile_append_of_pos inside]
  cases rest with
  | nil => simp
  | cons d rest => simp [boundary d rfl]

theorem dropWhile_append_eq (inside : ∀ c ∈ cs, p c = true)
    (boundary : ∀ c ∈ rest.head?, p c = false) : (cs ++ rest).dropWhile p = rest := by
  rw [List.dropWhile_append_of_pos inside]
  cases rest with
  | nil => rfl
  | cons d rest => simp [boundary d rfl]

theorem forall_ne_of_notMem (h : c ∉ cs) : ∀ d ∈ cs, decide (d ≠ c) = true := by
  intro d hd
  simpa using ne_of_mem_of_not_mem hd h

theorem takeWhile_ne_append_cons (h : c ∉ cs) : (cs ++ c :: rest).takeWhile (· ≠ c) = cs :=
  takeWhile_append_eq (forall_ne_of_notMem h) (by simp)

theorem dropWhile_ne_append_cons (h : c ∉ cs) :
    (cs ++ c :: rest).dropWhile (· ≠ c) = c :: rest :=
  dropWhile_append_eq (forall_ne_of_notMem h) (by simp)

theorem notMem_takeWhile_ne (c : Char) (cs : List Char) : c ∉ cs.takeWhile (· ≠ c) := by
  intro h
  simpa using List.mem_takeWhile_imp h

/-- A text with a certain character is split where the character occurs first. -/
theorem eq_append_of_dropWhile_ne {d : Char} (h : cs.dropWhile (· ≠ c) = d :: rest) :
    cs = cs.takeWhile (· ≠ c) ++ c :: rest := by
  have hd : d = c := by
    have hhead := List.head?_dropWhile_not (· ≠ c) cs
    rw [h] at hhead
    simpa using hhead
  calc cs = cs.takeWhile (· ≠ c) ++ cs.dropWhile (· ≠ c) := List.takeWhile_append_dropWhile.symm
    _ = cs.takeWhile (· ≠ c) ++ c :: rest := by rw [h, hd]

end Split

theorem Primitive.eq_letter_of_ofLetter? {c : Char} {p : Primitive} (h : ofLetter? c = some p) :
    c = p.letter := by
  unfold ofLetter? at h
  split at h <;> cases h <;> rfl

/-! ### Types -/

namespace FieldType

/-- The text is the descriptor of a type that is not an array. -/
inductive DenotesElement : List Char → FieldType → Prop
  | primitive (p : Primitive) : DenotesElement [p.letter] (.primitive p)
  | object {name : List Char} (h : ';' ∉ name) :
    DenotesElement ('L' :: (name ++ [';'])) (.object (.ofString (String.ofList name)))

/-- The text is the descriptor of the type. -/
inductive Denotes : List Char → FieldType → Prop
  | element {cs : List Char} {t : FieldType} (h : DenotesElement cs t) : Denotes cs t
  | array {cs : List Char} {t : FieldType} (h : DenotesElement cs t) (n : Nat) :
    Denotes (List.replicate (n + 1) '[' ++ cs)
      (.array (String.ofList (List.replicate (n + 1) '[' ++ cs)))

variable {cs rest : List Char} {t : FieldType}

theorem DenotesElement.exists_cons (h : DenotesElement cs t) :
    ∃ c rest, cs = c :: rest ∧ c ≠ '[' := by
  cases h with
  | primitive p => exact ⟨p.letter, [], rfl, by cases p <;> decide⟩
  | @object name h => exact ⟨'L', name ++ [';'], rfl, by decide⟩

theorem Denotes.ne_nil (h : Denotes cs t) : cs ≠ [] := by
  cases h with
  | element h =>
    obtain ⟨c, rest, rfl, -⟩ := h.exists_cons
    exact List.cons_ne_nil _ _
  | array h n => simp

/-- The first semicolon ends the descriptor of a class. -/
theorem Denotes.notMem_name {name : List Char} (h : Denotes ('L' :: (name ++ [';'])) t) :
    ';' ∉ name := by
  generalize htext : 'L' :: (name ++ [';']) = cs at h
  cases h with
  | element h =>
    cases h with
    | primitive p => simp at htext
    | @object name' h =>
      have hname : name = name' := by simpa using htext
      rwa [hname]
  | array h n => simp [List.replicate_succ] at htext

theorem scanElement_append (h : DenotesElement cs t) (rest : List Char) :
    scanElement (cs ++ rest) = .ok (t, rest) := by
  cases h with
  | primitive p => simp [scanElement]
  | @object name h =>
    have hletter : Primitive.ofLetter? 'L' = none := rfl
    rw [List.cons_append, List.append_assoc, List.singleton_append]
    simp only [scanElement, hletter, if_true, dropWhile_ne_append_cons h,
      takeWhile_ne_append_cons h]

theorem denotesElement_of_scanElement (h : scanElement cs = .ok (t, rest)) :
    ∃ front, cs = front ++ rest ∧ DenotesElement front t := by
  cases cs with
  | nil => cases h
  | cons c cs =>
    simp only [scanElement] at h
    split at h
    · next p hp =>
      cases h
      rw [Primitive.eq_letter_of_ofLetter? hp]
      exact ⟨_, rfl, .primitive p⟩
    · split at h
      · next hc =>
        split at h
        · cases h
        · next d after hafter =>
          cases h
          refine ⟨_, ?_, .object (notMem_takeWhile_ne ';' cs)⟩
          rw [hc]
          simpa using eq_append_of_dropWhile_ne hafter
      · cases h

theorem dropWhile_brackets (n : Nat) (hcs : ∀ c ∈ cs.head?, c ≠ '[') :
    (List.replicate n '[' ++ cs).dropWhile (· = '[') = cs :=
  dropWhile_append_eq (by simp) (by simpa using hcs)

/-- Behind its brackets, a type is scanned like one that is not an array. -/
theorem scan_replicate_append (n : Nat) (hcs : ∀ c ∈ cs.head?, c ≠ '[') :
    scan (List.replicate n '[' ++ cs) = (scanElement cs).map fun p =>
      (if n = 0 then p.1
        else .array (String.ofList ((List.replicate n '[' ++ cs).take (n + cs.length - p.2.length))),
        p.2) := by
  have hlength : (List.replicate n '[' ++ cs).length = n + cs.length := by simp
  simp only [scan, dropWhile_brackets n hcs, hlength]
  cases scanElement cs with
  | error e => rfl
  | ok p =>
    by_cases hn : n = 0
    · simp [hn, Except.map, bind, Except.bind, pure, Except.pure]
    · simp [hn, Except.map, bind, Except.bind, pure, Except.pure]

theorem exists_brackets (cs : List Char) :
    ∃ n body, cs = List.replicate n '[' ++ body ∧ ∀ c ∈ body.head?, c ≠ '[' := by
  refine ⟨(cs.takeWhile (· = '[')).length, cs.dropWhile (· = '['), ?_, ?_⟩
  · have hall : cs.takeWhile (· = '[') = List.replicate (cs.takeWhile (· = '[')).length '[' :=
      List.eq_replicate_iff.2 ⟨rfl, fun c hc => by simpa using List.mem_takeWhile_imp hc⟩
    rw [← hall, List.takeWhile_append_dropWhile]
  · intro c hc
    have hhead := List.head?_dropWhile_not (· = '[') cs
    rw [hc] at hhead
    simpa using hhead

theorem scan_append (h : Denotes cs t) (rest : List Char) : scan (cs ++ rest) = .ok (t, rest) := by
  have hhead : ∀ {front : List Char} {element : FieldType}, DenotesElement front element →
      ∀ c ∈ (front ++ rest).head?, c ≠ '[' := by
    intro front element hfront
    obtain ⟨c, after, rfl, hc⟩ := hfront.exists_cons
    simpa using hc
  cases h with
  | element h => simpa [scanElement_append h rest, Except.map] using scan_replicate_append 0 (hhead h)
  | @array front element h n =>
    rw [List.append_assoc, scan_replicate_append (n + 1) (hhead h), scanElement_append h rest]
    have hlength : n + 1 + (front ++ rest).length - rest.length =
        (List.replicate (n + 1) '[' ++ front).length := by simp; omega
    simp only [Except.map, Nat.add_one_ne_zero, if_false, hlength, ← List.append_assoc,
      List.take_left]

theorem denotes_of_scan (h : scan cs = .ok (t, rest)) :
    ∃ front, cs = front ++ rest ∧ Denotes front t := by
  obtain ⟨n, body, rfl, hbody⟩ := exists_brackets cs
  rw [scan_replicate_append n hbody] at h
  obtain ⟨⟨element, after⟩, hscan, hp⟩ := map_eq_ok.1 h
  obtain ⟨front, rfl, hfront⟩ := denotesElement_of_scanElement hscan
  have hlength : n + (front ++ after).length - after.length =
      (List.replicate n '[' ++ front).length := by simp; omega
  rw [hlength, ← List.append_assoc, List.take_left] at hp
  cases n with
  | zero =>
    cases hp
    exact ⟨front, by simp, .element hfront⟩
  | succ n =>
    cases hp
    exact ⟨_, (List.append_assoc _ _ _).symm, .array hfront n⟩

theorem parse_eq_ok_iff {s : String} : parse s = .ok t ↔ Denotes s.toList t := by
  unfold parse
  constructor
  · intro h
    obtain ⟨⟨type, rest⟩, hscan, h⟩ := bind_eq_ok.1 h
    cases rest with
    | nil =>
      cases h
      obtain ⟨front, htext, hfront⟩ := denotes_of_scan hscan
      rwa [htext, List.append_nil]
    | cons c rest => cases h
  · intro h
    have hscan := scan_append h []
    rw [List.append_nil] at hscan
    exact bind_eq_ok.2 ⟨(t, []), hscan, rfl⟩

/-! ### Types in a row -/

variable {ds ds' : List (List Char)} {ts ts' : List FieldType}

theorem scanAll_eq (hcs : cs ≠ []) :
    scanAll cs = scan cs >>= fun p => (scanAll p.2).map (p.1 :: ·) := by
  cases cs with
  | nil => contradiction
  | cons c cs =>
    rw [scanAll]
    split
    · next e he => rw [he]; rfl
    · next type rest hok => rw [hok]; rfl

theorem scanAll_append (h : List.Forall₂ Denotes ds ts) (rest : List Char) :
    scanAll (ds.flatten ++ rest) = (scanAll rest).map (ts ++ ·) := by
  induction h with
  | nil => cases hrest : scanAll rest <;> simp [hrest, Except.map]
  | @cons d t ds ts hd _ ih =>
    have hne : d ++ (ds.flatten ++ rest) ≠ [] := List.append_ne_nil_of_left_ne_nil hd.ne_nil _
    rw [List.flatten_cons, List.append_assoc, scanAll_eq hne, scan_append hd]
    show (scanAll (ds.flatten ++ rest)).map (t :: ·) = _
    rw [ih]
    cases scanAll rest <;> rfl

theorem exists_denotes_of_scanAll (h : scanAll cs = .ok ts) :
    ∃ ds, cs = ds.flatten ∧ List.Forall₂ Denotes ds ts := by
  fun_induction scanAll cs generalizing ts with
  | case1 =>
    cases h
    exact ⟨[], rfl, .nil⟩
  | case2 c cs e he => cases h
  | case3 c cs type rest hscan ih =>
    obtain ⟨types, htypes, rfl⟩ := map_eq_ok.1 h
    obtain ⟨front, hfront, htype⟩ := denotes_of_scan hscan
    obtain ⟨ds, rfl, hds⟩ := ih htypes
    exact ⟨front :: ds, hfront, .cons htype hds⟩

theorem scanAll_eq_ok_iff :
    scanAll cs = .ok ts ↔ ∃ ds, cs = ds.flatten ∧ List.Forall₂ Denotes ds ts := by
  refine ⟨exists_denotes_of_scanAll, ?_⟩
  rintro ⟨ds, rfl, h⟩
  simpa [scanAll, Except.map] using scanAll_append h []

/-- Descriptors in a row can be told apart. -/
theorem eq_of_flatten_eq (h : ∀ d ∈ ds, ∃ t, Denotes d t) (h' : ∀ d ∈ ds', ∃ t, Denotes d t)
    (heq : ds.flatten = ds'.flatten) : ds = ds' := by
  induction ds generalizing ds' with
  | nil =>
    cases ds' with
    | nil => rfl
    | cons d' ds' =>
      obtain ⟨t', hd'⟩ := h' d' List.mem_cons_self
      simp [hd'.ne_nil] at heq
  | cons d ds ih =>
    obtain ⟨t, hd⟩ := h d List.mem_cons_self
    cases ds' with
    | nil => simp [hd.ne_nil] at heq
    | cons d' ds' =>
      obtain ⟨t', hd'⟩ := h' d' List.mem_cons_self
      simp only [List.flatten_cons] at heq
      -- both descriptors are what one scan takes off the same text
      have hscan := scan_append hd ds.flatten
      rw [heq, scan_append hd'] at hscan
      have hrest : ds'.flatten = ds.flatten := (Prod.mk.inj (Except.ok.inj hscan)).2
      have htail := ih (fun e he => h e (List.mem_cons_of_mem _ he))
        (fun e he => h' e (List.mem_cons_of_mem _ he)) hrest.symm
      rw [hrest] at heq
      rw [List.append_cancel_right heq, htail]

/-! ### Closing parentheses in class names -/

theorem scanElement_unterminated {name : List Char} (h : ';' ∉ name) :
    scanElement ('L' :: name) = .error (.unterminated (String.ofList ('L' :: name))) := by
  have hletter : Primitive.ofLetter? 'L' = none := rfl
  have hdrop : name.dropWhile (· ≠ ';') = [] :=
    List.dropWhile_eq_nil_iff.2 (forall_ne_of_notMem h)
  simp only [scanElement, hletter, if_true, hdrop]

/-- The first closing parenthesis in a descriptor is in a class name. -/
theorem Denotes.exists_split (h : Denotes cs t) (hclose : ')' ∈ cs) :
    ∃ n name rest, cs = List.replicate n '[' ++ 'L' :: name ++ ')' :: rest ∧
      ')' ∉ List.replicate n '[' ++ 'L' :: name ∧ ';' ∉ name := by
  have helement : ∀ {front : List Char} {element : FieldType}, DenotesElement front element →
      ')' ∈ front → ∃ name rest, front = 'L' :: name ++ ')' :: rest ∧ ')' ∉ name ∧ ';' ∉ name := by
    intro front element hfront hmem
    cases hfront with
    | primitive p => cases p <;> simp [Primitive.letter] at hmem
    | @object name h =>
      have hname : ')' ∈ name := by simpa using hmem
      obtain ⟨before, after, rfl, hbefore⟩ := List.eq_append_cons_of_mem hname
      exact ⟨before, after ++ [';'], by simp, hbefore, fun hin => h (List.mem_append_left _ hin)⟩
  cases h with
  | element h =>
    obtain ⟨name, rest, rfl, hname, hend⟩ := helement h hclose
    exact ⟨0, name, rest, rfl, by simpa using hname, hend⟩
  | array h n =>
    obtain ⟨name, rest, rfl, hname, hend⟩ := helement h (by simpa using hclose)
    exact ⟨n + 1, name, rest, by simp, by simpa using hname, hend⟩

/-- Parameters that are cut at a closing parenthesis end in a class name without an end. -/
theorem scanAll_takeWhile (h : List.Forall₂ Denotes ds ts) (hclose : ')' ∈ ds.flatten)
    (rest : List Char) :
    ∃ text, scanAll ((ds.flatten ++ rest).takeWhile (· ≠ ')')) = .error (.unterminated text) := by
  induction h with
  | nil => cases hclose
  | @cons d t ds ts hd _ ih =>
    rw [List.flatten_cons, List.append_assoc]
    by_cases hmem : ')' ∈ d
    · obtain ⟨n, name, after, rfl, hfront, hname⟩ := hd.exists_split hmem
      rw [List.append_assoc, List.cons_append, takeWhile_ne_append_cons hfront, scanAll_eq (by simp),
        scan_replicate_append n (by simp), scanElement_unterminated hname]
      exact ⟨_, rfl⟩
    · have htail : ')' ∈ ds.flatten := by simpa [hmem] using hclose
      obtain ⟨text, htext⟩ := ih htail
      rw [List.takeWhile_append_of_pos (forall_ne_of_notMem hmem),
        scanAll_eq (List.append_ne_nil_of_left_ne_nil hd.ne_nil _), scan_append hd]
      refine ⟨text, ?_⟩
      show (scanAll _).map (t :: ·) = _
      rw [htext]
      rfl

end FieldType

/-! ### Methods -/

namespace Signature

/-- The text stands for the result of a method. -/
inductive DenotesResult : List Char → Option FieldType → Prop
  | void : DenotesResult ['V'] none
  | type {cs : List Char} {t : FieldType} (h : FieldType.Denotes cs t) : DenotesResult cs (some t)

/-- The text is the descriptor of a method. -/
inductive Denotes : List Char → Signature → Prop
  | mk {ds : List (List Char)} {parameters : List FieldType} {cs : List Char}
    {result : Option FieldType} (hparameters : List.Forall₂ FieldType.Denotes ds parameters)
    (hclose : ')' ∉ ds.flatten) (hresult : DenotesResult cs result) :
    Denotes ('(' :: (ds.flatten ++ ')' :: cs)) ⟨parameters, result⟩

variable {s : String} {sig : Signature} {ps cs : List Char}

/-- Parsing from the end of the parameters on. -/
def withResult (s : String) (cs : List Char) (parameters : List FieldType) :
    Except DescriptorError Signature :=
  if cs = ['V'] then .ok ⟨parameters, none⟩
  else (FieldType.parse (String.ofList cs)).mapError (.result s) >>= fun type =>
    .ok ⟨parameters, some type⟩

theorem not_denotes_void {t : FieldType} : ¬ FieldType.Denotes ['V'] t := by
  intro h
  have hscan := FieldType.scan_append h []
  cases hscan

theorem withResult_eq_ok_iff {parameters : List FieldType} :
    withResult s cs parameters = .ok sig ↔
      sig.parameters = parameters ∧ DenotesResult cs sig.result := by
  obtain ⟨types, result⟩ := sig
  unfold withResult
  split
  · next hvoid =>
    subst hvoid
    constructor
    · intro h
      cases h
      exact ⟨rfl, .void⟩
    · rintro ⟨rfl, hresult⟩
      cases hresult with
      | void => rfl
      | type h => exact absurd h not_denotes_void
  · next hvoid =>
    constructor
    · intro h
      obtain ⟨type, htype, h⟩ := bind_eq_ok.1 h
      cases h
      have hdenotes := FieldType.parse_eq_ok_iff.1 (mapError_eq_ok.1 htype)
      rw [String.toList_ofList] at hdenotes
      exact ⟨rfl, .type hdenotes⟩
    · rintro ⟨rfl, hresult⟩
      cases hresult with
      | void => exact absurd rfl hvoid
      | @type _ t h =>
        have hparse : FieldType.parse (String.ofList cs) = .ok t :=
          FieldType.parse_eq_ok_iff.2 (by rwa [String.toList_ofList])
        exact bind_eq_ok.2 ⟨t, mapError_eq_ok.2 hparse, rfl⟩

theorem parse_of_split (htext : s.toList = '(' :: (ps ++ ')' :: cs)) (hps : ')' ∉ ps) :
    parse s = (FieldType.scanAll ps).mapError (.parameter s) >>= withResult s cs := by
  simp only [parse, htext, dropWhile_ne_append_cons hps, takeWhile_ne_append_cons hps]
  rfl

theorem exists_split_of_parse (h : parse s = .ok sig) :
    ∃ ps cs, s.toList = '(' :: (ps ++ ')' :: cs) ∧ ')' ∉ ps := by
  unfold parse at h
  split at h
  · next body hbody =>
    split at h
    · cases h
    · next d cs hcs =>
      refine ⟨_, cs, ?_, notMem_takeWhile_ne ')' body⟩
      rw [hbody, ← eq_append_of_dropWhile_ne hcs]
  · cases h

theorem parse_eq_ok_iff : parse s = .ok sig ↔ Denotes s.toList sig := by
  constructor
  · intro h
    obtain ⟨ps, cs, htext, hclose⟩ := exists_split_of_parse h
    rw [parse_of_split htext hclose] at h
    obtain ⟨parameters, hparameters, hsig⟩ := bind_eq_ok.1 h
    obtain ⟨ds, rfl, hds⟩ := FieldType.exists_denotes_of_scanAll (mapError_eq_ok.1 hparameters)
    obtain ⟨rfl, hresult⟩ := withResult_eq_ok_iff.1 hsig
    rw [htext]
    exact .mk hds hclose hresult
  · generalize htext : s.toList = text
    rintro ⟨hds, hclose, hresult⟩
    rw [parse_of_split htext hclose]
    have hparameters := FieldType.scanAll_eq_ok_iff.2 ⟨_, rfl, hds⟩
    exact bind_eq_ok.2 ⟨_, mapError_eq_ok.2 hparameters, withResult_eq_ok_iff.2 ⟨rfl, hresult⟩⟩

end Signature

/-- The two parsers accept exactly what the grammar derives, and the parameters of a method can be
split into descriptors in one way only. -/
theorem descriptors_exact :
    (∀ (s : String) (t : FieldType), FieldType.parse s = .ok t ↔ FieldType.Denotes s.toList t) ∧
    (∀ (s : String) (sig : Signature),
      Signature.parse s = .ok sig ↔ Signature.Denotes s.toList sig) ∧
    ∀ p : String, Set.Subsingleton
      {ds : List String | (∀ d ∈ ds, ∃ t, FieldType.parse d = .ok t) ∧ String.join ds = p} := by
  refine ⟨fun s t => FieldType.parse_eq_ok_iff, fun s sig => Signature.parse_eq_ok_iff, ?_⟩
  rintro p ds ⟨hds, rfl⟩ ds' ⟨hds', hp⟩
  have hdenotes : ∀ {ds : List String}, (∀ d ∈ ds, ∃ t, FieldType.parse d = .ok t) →
      ∀ d ∈ ds.map String.toList, ∃ t, FieldType.Denotes d t := by
    intro ds hds d hd
    obtain ⟨text, htext, rfl⟩ := List.mem_map.1 hd
    obtain ⟨t, ht⟩ := hds text htext
    exact ⟨t, FieldType.parse_eq_ok_iff.1 ht⟩
  have hflatten : (ds.map String.toList).flatten = (ds'.map String.toList).flatten := by
    have htext := congrArg String.toList hp
    simpa [String.toList_join, List.flatMap_def] using htext.symm
  have heq := FieldType.eq_of_flatten_eq (hdenotes hds) (hdenotes hds') hflatten
  exact List.map_injective_iff.2 (fun _ _ => String.toList_inj.1) heq

/-! ### Composition -/

namespace Signature

/-- The descriptor of a method that is put together from those of its parameters and its result. -/
def compose (parameters : List String) (result : String) : String :=
  "(" ++ String.join parameters ++ ")" ++ result

variable {ds : List String} {types : List FieldType} {r : String} {result : Option FieldType}

theorem toList_compose (ds : List String) (r : String) :
    (compose ds r).toList = '(' :: ((ds.map String.toList).flatten ++ ')' :: r.toList) := by
  simp [compose, String.toList_join, List.flatMap_def]

theorem forall₂_denotes (h : List.Forall₂ (fun d t => FieldType.parse d = .ok t) ds types) :
    List.Forall₂ FieldType.Denotes (ds.map String.toList) types := by
  rw [List.forall₂_map_left_iff]
  exact h.imp fun d t hd => FieldType.parse_eq_ok_iff.1 hd

theorem parse_compose (hds : List.Forall₂ (fun d t => FieldType.parse d = .ok t) ds types)
    (hr : DenotesResult r.toList result) (hclose : ∀ d ∈ ds, ')' ∉ d.toList) :
    parse (compose ds r) = .ok ⟨types, result⟩ := by
  rw [parse_eq_ok_iff, toList_compose]
  exact .mk (forall₂_denotes hds) (by simpa using hclose) hr

/-- A class name with a closing parenthesis among the parameters is taken to have no end. -/
theorem exists_parse_compose_error
    (hds : List.Forall₂ (fun d t => FieldType.parse d = .ok t) ds types)
    (hclose : ∃ d ∈ ds, ')' ∈ d.toList) (r : String) :
    ∃ text, parse (compose ds r) =
      .error (.parameter (compose ds r) (.unterminated text)) := by
  generalize hflatten : (ds.map String.toList).flatten ++ ')' :: r.toList = body
  have hmem : ')' ∈ (ds.map String.toList).flatten := by simpa using hclose
  obtain ⟨text, htext⟩ := FieldType.scanAll_takeWhile (forall₂_denotes hds) hmem (')' :: r.toList)
  obtain ⟨front, rest, hbody, hfront⟩ : ∃ front rest, body = front ++ ')' :: rest ∧ ')' ∉ front :=
    List.eq_append_cons_of_mem (by simp [← hflatten])
  have hsplit : (compose ds r).toList = '(' :: (front ++ ')' :: rest) := by
    rw [toList_compose, hflatten, hbody]
  rw [hflatten, hbody, takeWhile_ne_append_cons hfront] at htext
  refine ⟨text, ?_⟩
  rw [parse_of_split hsplit hfront, htext]
  rfl

/-- Descriptors of types make up the descriptor of a method exactly if no class name among the
parameters has a closing parenthesis. -/
theorem parse_composed_iff (hds : List.Forall₂ (fun d t => FieldType.parse d = .ok t) ds types)
    (hr : r = "V" ∧ result = none ∨ ∃ t, FieldType.parse r = .ok t ∧ result = some t) :
    (parse (compose ds r) = .ok ⟨types, result⟩ ↔ ∀ d ∈ ds, ')' ∉ d.toList) ∧
    ((∃ d ∈ ds, ')' ∈ d.toList) → ∃ text, parse (compose ds r) =
      .error (.parameter (compose ds r) (.unterminated text))) := by
  have hresult : DenotesResult r.toList result := by
    rcases hr with ⟨rfl, rfl⟩ | ⟨t, ht, rfl⟩
    · exact .void
    · exact .type (FieldType.parse_eq_ok_iff.1 ht)
  refine ⟨⟨fun hok d hd hmem => ?_, parse_compose hds hresult⟩,
    fun hclose => exists_parse_compose_error hds hclose r⟩
  obtain ⟨text, htext⟩ := exists_parse_compose_error hds ⟨d, hd, hmem⟩ r
  rw [htext] at hok
  cases hok

theorem parse_composed_iff_shape :
    List.Forall₂ (fun d t => FieldType.parse d = .ok t) ["[J", "Lcom/acme/Point;"]
      [.array "[J", .object (.ofString "com/acme/Point")] ∧
    FieldType.parse "Lcom/acme/Shape$of (0, 1)$1;" =
      .ok (.object (.ofString "com/acme/Shape$of (0, 1)$1")) ∧
    parse (compose ["[J", "Lcom/acme/Point;"] "Lcom/acme/Shape$of (0, 1)$1;") =
      .ok ⟨[.array "[J", .object (.ofString "com/acme/Point")],
        some (.object (.ofString "com/acme/Shape$of (0, 1)$1"))⟩ := by
  have harray : FieldType.parse "[J" = .ok (.array "[J") := mem_toOption_iff.1 (by decide +kernel)
  have hpoint : FieldType.parse "Lcom/acme/Point;" = .ok (.object (.ofString "com/acme/Point")) :=
    mem_toOption_iff.1 (by decide +kernel)
  have hshape : FieldType.parse "Lcom/acme/Shape$of (0, 1)$1;" =
      .ok (.object (.ofString "com/acme/Shape$of (0, 1)$1")) :=
    mem_toOption_iff.1 (by decide +kernel)
  have hds : List.Forall₂ (fun d t => FieldType.parse d = .ok t) ["[J", "Lcom/acme/Point;"]
      [.array "[J", .object (.ofString "com/acme/Point")] := .cons harray (.cons hpoint .nil)
  exact ⟨hds, hshape, (parse_composed_iff hds (.inr ⟨_, hshape, rfl⟩)).1.2 (by decide +kernel)⟩

/-- The descriptor of a class that is named after a test with a parenthesis in its own name is
accepted alone, but not as a parameter. -/
theorem not_parse_composed_testCase :
    FieldType.parse "Lcom/acme/PointTest$moves (twice)$1;" =
      .ok (.object (.ofString "com/acme/PointTest$moves (twice)$1")) ∧
    parse (compose ["Lcom/acme/PointTest$moves (twice)$1;"] "V") ≠
      .ok ⟨[.object (.ofString "com/acme/PointTest$moves (twice)$1")], none⟩ := by
  have hparse : FieldType.parse "Lcom/acme/PointTest$moves (twice)$1;" =
      .ok (.object (.ofString "com/acme/PointTest$moves (twice)$1")) :=
    mem_toOption_iff.1 (by decide +kernel)
  refine ⟨hparse, fun hok => ?_⟩
  obtain ⟨text, htext⟩ := exists_parse_compose_error (.cons hparse .nil)
    ⟨_, List.mem_singleton_self _, by decide +kernel⟩ "V"
  rw [htext] at hok
  cases hok

end Signature

end Immutability
