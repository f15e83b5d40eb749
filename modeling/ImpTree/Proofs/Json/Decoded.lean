import Mathlib.Data.List.Nodup
import ImpTree.Json.Decoder
import ImpTree.Proofs.Json.Nesting

/-!
# Documents that are decoded

A decoder that follows a document reads it with as many brackets as are nested in the document, and
fails with fewer.  There is one lemma for each way of writing data: words, texts, lists, records,
forms with a content, and what may be missing.

* `Json.ReadsAs` — what a decoder makes of a document, for every number of brackets.
* `Json.readsAs_record`, `Json.readsAs_form`, `Json.readsAs_listOf` — decoders of brackets.
-/

namespace ImpTree.Json

variable {α β : Type}

/-- The decoder makes the value of the document if the brackets nested in the document may be
nested, and fails if they may not. -/
def ReadsAs (j : Json) (decode : Nat → Json → Option α) (a : α) : Prop :=
  ∀ n, decode n j = if j.depth ≤ n then some a else none

@[simp]
theorem bind_within {c : Prop} [Decidable c] {a : α} {next : α → Option β} :
    (if c then some a else none : Option α).bind next = if c then next a else none := by
  split <;> rfl

/-- What is made of a value is made of what the document is read as. -/
theorem ReadsAs.build {j : Json} {decode : Nat → Json → Option α} {a : α} (h : j.ReadsAs decode a)
    (make : α → β) : j.ReadsAs (fun n j => do return make (← decode n j)) (make a) := by
  intro n
  show (do return make (← decode n j)) = _
  rw [h n, Option.bind_eq_bind, bind_within]
  rfl

/-! ## Plain data -/

@[simp]
theorem depth_null : null.depth = 0 := rfl

@[simp]
theorem depth_bool (b : Bool) : (bool b).depth = 0 := rfl

@[simp]
theorem depth_text (s : String) : (text s).depth = 0 := rfl

@[simp]
theorem depth_nat (n : Nat) : (nat n).depth = 0 := rfl

@[simp]
theorem depth_number (n : Numeral) : (number n).depth = 0 := rfl

@[simp]
theorem bool?_bool (b : Bool) : (bool b).bool? = some b := rfl

@[simp]
theorem text?_text (s : String) : (text s).text? = some s := rfl

@[simp]
theorem char?_singleton (c : Char) : (text (String.singleton c)).char? = some c := by
  simp [char?]

@[simp]
theorem word?_text (n : Nat) (s : String) : (text s).word? n = some s := by
  cases n <;> rfl

/-- A form with a content is no word. -/
theorem word?_form {name : String} {content : Json} (h : content ≠ null) (n : Nat) :
    (record [(name, content)]).word? n = none := by
  cases content with
  | null => exact absurd rfl h
  | _ => cases n <;> rfl

/-- What has no brackets is read without any. -/
theorem readsAs_plain {decode : Json → Option α} {j : Json} {a : α} (hplain : j.depth = 0)
    (h : decode j = some a) : j.ReadsAs (fun _ => decode) a := by
  intro n
  show decode j = _
  rw [h, if_pos (hplain ▸ Nat.zero_le n)]

/-- A number of 64 bits is read back. -/
@[simp]
theorem uint64?_nat (n : UInt64) : (nat n.toNat).uint64? = some n := by
  have hpower : Int.pow 2 64 = ((2 ^ 64 : Nat) : Int) := rfl
  have hfits : 0 ≤ (n.toNat : Int) ∧ (n.toNat : Int) < Int.pow 2 64 := by
    rw [hpower]
    exact ⟨Int.natCast_nonneg _, Int.ofNat_lt.2 n.toNat_lt⟩
  have hint : (nat n.toNat).int? = some (n.toNat : Int) := by
    simp [nat, Numeral.ofNat, int?, Digits.value_ofNat, signed]
  rw [uint64?, hint, Option.bind_eq_bind, Option.bind_some, if_pos hfits, Int.toNat_natCast,
    UInt64.ofNat_toNat]

/-- An integer is read back. -/
@[simp]
theorem int?_int (n : Int) : (int n).int? = some n := by
  have hnonzero : (decide (n < 0) && n.natAbs == 0) = false := by
    by_cases hn : n < 0
    · simp [hn.ne]
    · simp [hn]
  rw [int, Numeral.ofInt, int?, Digits.value_ofNat, hnonzero, Integer.signed_natAbs]
  rfl

/-- An integer of 32 bits is read back. -/
@[simp]
theorem int32?_int (n : Int32) : (int n.toInt).int32? = some n := by
  have hfits : -Int.pow 2 31 ≤ n.toInt ∧ n.toInt < Int.pow 2 31 := ⟨n.le_toInt, n.toInt_lt⟩
  rw [int32?, int?_int, Option.bind_eq_bind, Option.bind_some, if_pos hfits, Int32.ofInt_toInt]

/-! ## Fields -/

@[simp]
theorem required_some (decode : Json → Option α) (j : Json) :
    required decode (some j) = decode j := rfl

@[simp]
theorem defaulted_some (default : α) (decode : Json → Option α) (j : Json) :
    defaulted default decode (some j) = decode j := rfl

/-- A text that may be missing is read back. -/
@[simp]
theorem optional_text (value : Option String) :
    optional text? (some (option text value)) = some value := by
  cases value <;> rfl

@[simp]
theorem depth_optionText (value : Option String) : (option text value).depth = 0 := by
  cases value <;> rfl

/-- A part that could be missing is there if it is not `null`. -/
theorem optional_of_ne_null {decode : Json → Option α} {j : Json} (h : j ≠ null) :
    optional decode (some j) = (decode j).map some := by
  rw [optional.eq_def]
  split
  · rename_i heq
    cases heq
  · rename_i heq
    exact absurd (Option.some.inj heq) h
  · rename_i heq
    rw [Option.some.inj heq]

/-- A part that may be missing is read back if no document of a part is `null`. -/
theorem optional_option {toJson : β → Json} {decode : Nat → Json → Option α} {f : β → α}
    (hread : ∀ b, (toJson b).ReadsAs decode (f b)) (hnull : ∀ b, toJson b ≠ null)
    (value : Option β) (n : Nat) :
    optional (decode n) (some (option toJson value)) =
      if (option toJson value).depth ≤ n then some (value.map f) else none := by
  cases value with
  | none => exact (if_pos (Nat.zero_le n)).symm
  | some b =>
    rw [option, optional_of_ne_null (hnull b), hread b n, apply_ite (Option.map some)]
    rfl

/-! ## Brackets -/

/-- A decoder of brackets takes one bracket for what it looks into. -/
theorem readsAs_bracket {j : Json} {decode : Nat → Json → Option α} {a : α} (inner : Nat → Prop)
    [DecidablePred inner] (hdepth : ∀ n, j.depth ≤ n + 1 ↔ inner n) (hopen : 0 < j.depth)
    (hzero : decode 0 j = none)
    (hsucc : ∀ n, decode (n + 1) j = if inner n then some a else none) : j.ReadsAs decode a := by
  intro n
  cases n with
  | zero => rw [hzero, if_neg (Nat.not_le.2 hopen)]
  | succ n =>
    rw [hsucc]
    exact if_congr (hdepth n).symm rfl rfl

/-- Every name of a record finds its content. -/
theorem lookup_zip : ∀ (names : List String) (contents : List Json), names.Nodup →
    names.length = contents.length →
    names.map (fun name => ((names.zip contents).map fun member =>
      ((some member.1 : JsonText), member.2)).lookup (some name)) = contents.map some
  | [], [], _, _ => rfl
  | name :: names, content :: contents, hnames, hlength => by
    rw [List.nodup_cons] at hnames
    have hrest := lookup_zip names contents hnames.2 (Nat.succ.inj hlength)
    rw [List.map_cons, List.zip_cons_cons, List.map_cons, List.lookup_cons_self, List.map_cons,
      ← hrest]
    refine congrArg _ (List.map_congr_left fun other hother => ?_)
    have hne : ((some other : JsonText) == some name) = false := by
      rw [beq_eq_false_iff_ne]
      rintro ⟨⟩
      exact hnames.1 hother
    rw [List.lookup_cons, hne]

/-- A record that holds every name once is taken field by field. -/
theorem fields?_record (names : List String) (contents : List Json) (least : Nat)
    (hnames : names.Nodup) (hlength : names.length = contents.length) :
    (record (names.zip contents)).fields? names least = some (contents.map some) := by
  have hproper : ((names.zip contents).map fun member =>
      ((some member.1 : JsonText), member.2)).all (fun member => member.1.isSome) = true := by
    simp
  have honce : names.any (isRepeated ((names.zip contents).map fun member =>
      ((some member.1 : JsonText), member.2))) = false := by
    rw [List.any_eq_false]
    intro name _
    have hcount : ((names.zip contents).map fun member =>
        ((some member.1 : JsonText), member.2)).countP (fun member => member.1 == some name) =
          ((names.zip contents).map Prod.fst).count name := by
      rw [List.countP_map, List.count, List.countP_map]
      exact List.countP_congr fun member _ => by simp
    rw [isRepeated, hcount, List.map_fst_zip hlength.le]
    simpa using List.nodup_iff_count_le_one.1 hnames name
  rw [record, fields?, hproper, honce, lookup_zip names contents hnames hlength]
  rfl

/-- A decoder of records is known from what it makes of the fields. -/
theorem readsAs_record {decode : Nat → Json → Option α} {a : α} (names : List String)
    (contents : List Json) (least : Nat) (hnames : names.Nodup)
    (hlength : names.length = contents.length) (hzero : ∀ j, decode 0 j = none)
    (hfields : ∀ n j, j.fields? names least = some (contents.map some) →
      decode (n + 1) j = if ∀ content ∈ contents, content.depth ≤ n then some a else none) :
    (record (names.zip contents)).ReadsAs decode a := by
  refine readsAs_bracket _ (fun n => ?_) (Nat.succ_pos _) (hzero _) fun n =>
    hfields n _ (fields?_record names contents least hnames hlength)
  calc (record (names.zip contents)).depth ≤ n + 1
      ↔ ∀ member ∈ names.zip contents, member.2.depth ≤ n := depth_record_le
    _ ↔ ∀ content ∈ (names.zip contents).map Prod.snd, content.depth ≤ n := by
        rw [List.forall_mem_map]
    _ ↔ ∀ content ∈ contents, content.depth ≤ n := by rw [List.map_snd_zip hlength.ge]

/-- A decoder of forms goes on with the decoder of the content. -/
theorem readsAs_form {decode decodeContent : Nat → Json → Option α} {a : α} {name : String}
    {content : Json} (hzero : decode 0 (record [(name, content)]) = none)
    (hsucc : ∀ n, decode (n + 1) (record [(name, content)]) = decodeContent n content)
    (hcontent : content.ReadsAs decodeContent a) :
    (record [(name, content)]).ReadsAs decode a := by
  refine readsAs_bracket (fun n => content.depth ≤ n) (fun n => ?_) (Nat.succ_pos _) hzero
    fun n => ?_
  · rw [depth_record_le, List.forall_mem_singleton]
  · rw [hsucc, hcontent n]

/-- Elements are read one by one. -/
theorem mapM_readsAs {decode : Nat → Json → Option α} {items : List Json} {as : List α}
    (h : List.Forall₂ (fun j a => j.ReadsAs decode a) items as) (n : Nat) :
    items.mapM (decode n) = if ∀ item ∈ items, item.depth ≤ n then some as else none := by
  induction h with
  | nil => simp
  | cons hitem _ ih =>
    rw [List.mapM_cons, hitem n, ih]
    simp [ite_and]

/-- A decoder of lists is known from the decoder of the elements. -/
theorem readsAs_list {decode : Nat → Json → Option α} {decodeList : Nat → Json → Option (List α)}
    {items : List Json} {as : List α} (hzero : ∀ j, decodeList 0 j = none)
    (hsucc : ∀ n, decodeList (n + 1) (list items) = items.mapM (decode n))
    (h : List.Forall₂ (fun j a => j.ReadsAs decode a) items as) :
    (list items).ReadsAs decodeList as :=
  readsAs_bracket _ (fun _ => depth_list_le) (Nat.succ_pos _) (hzero _) fun n => by
    rw [hsucc, mapM_readsAs h]

/-- A list of documents of one kind is read element by element, if its elements are read back. -/
theorem readsAs_listOf_of_mem {toJson : β → Json} {decode : Nat → Json → Option α} {f : β → α}
    {values : List β} (h : ∀ b ∈ values, (toJson b).ReadsAs decode (f b)) :
    (list (values.map toJson)).ReadsAs (listOf decode) (values.map f) := by
  refine readsAs_list (fun _ => rfl) (fun _ => rfl) ?_
  rw [List.forall₂_map_left_iff, List.forall₂_map_right_iff, List.forall₂_same]
  exact h

/-- A list of documents of one kind is read element by element. -/
theorem readsAs_listOf {toJson : β → Json} {decode : Nat → Json → Option α} {f : β → α}
    (h : ∀ b, (toJson b).ReadsAs decode (f b)) (values : List β) :
    (list (values.map toJson)).ReadsAs (listOf decode) (values.map f) :=
  readsAs_listOf_of_mem fun b _ => h b

end ImpTree.Json
