/-
# Rustee.OpenAi.Embeddings -- the embeddings of a batch, put back in the order of its inputs

`rustee-ai-openai/src/provider/embeddings.rs`.  The items of the answer, each with the index of its
input, are put back in the order of the inputs.

`decode_embeddings_iff` says which answers are accepted: the items stand for the inputs one to one.
The count, the range and the duplicates are tested apart from each other, and together they leave no
slot empty.
-/
import Rustee.Foundation.Json
import Rustee.Foundation.Slots
import Rustee.OpenAi.Sse
import Rustee.Rag.Values

namespace Rustee.OpenAi

set_option autoImplicit false

open Rustee.Foundation Rustee.Rag

/-! ## Answers -/

section

-- what the text of a number is as an `f32`
variable (readF32 : Json → Option F32)

def itemIndex (item : Json) : Option Nat := ((item.get "index").bind Json.asU64).map UInt64.toNat

/-- The number of inputs is a `usize`, so that the conversion of the index rejects nothing more. -/
def readIndex (expectedEmbeddings : Nat) (item : Json) : Option Nat :=
  (itemIndex item).filter fun index => index < expectedEmbeddings

def readEmbedding (item : Json) : Option Embedding := do
  let items ← (item.get "embedding").bind Json.asArray
  let values ← items.mapM readF32
  (Embedding.new values).toOption

def orMalformed {α : Type} (value : Option α) : Except OpenAiError α :=
  match value with
  | some value => .ok value
  | none => .error .malformedEmbeddingResponse

/-- One item of the answer.  The slot is written to before it is known whether it was empty, but
then nothing is returned. -/
def decodeItem (expectedEmbeddings : Nat) (ordered : List (Option Embedding)) (item : Json) :
    Except OpenAiError (List (Option Embedding)) := do
  let index ← orMalformed (readIndex expectedEmbeddings item)
  let embedding ← orMalformed (readEmbedding readF32 item)
  orMalformed (Slots.place ordered (index, embedding))

def decodeItems (items : List Json) (expectedEmbeddings : Nat) :
    Except OpenAiError (List (Option Embedding)) :=
  items.foldlM (decodeItem readF32 expectedEmbeddings) (List.replicate expectedEmbeddings none)

def decodeEmbeddings (value : Json) (expectedEmbeddings : Nat) :
    Except OpenAiError (List Embedding) := do
  let data ← orMalformed ((value.get "data").bind Json.asArray)
  if data.length ≠ expectedEmbeddings then .error .malformedEmbeddingResponse
  else do
    let ordered ← decodeItems readF32 data expectedEmbeddings
    orMalformed (ordered.mapM id)

/-! ## What is accepted -/

theorem orMalformed_eq_ok {α : Type} {value : Option α} {result : α} :
    orMalformed value = .ok result ↔ value = some result := by
  cases value <;> simp [orMalformed]

variable {expectedEmbeddings : Nat} {ordered : List (Option Embedding)} {items : List Json}
  {entries : List (Nat × Embedding)}

theorem readIndex_eq_some {index : Nat} {item : Json} :
    readIndex expectedEmbeddings item = some index ↔
      itemIndex item = some index ∧ index < expectedEmbeddings := by
  rw [readIndex, Option.filter_eq_some_iff, decide_eq_true_eq]

/-- What an item stands for. -/
def StandsFor (expectedEmbeddings : Nat) (item : Json) (entry : Nat × Embedding) : Prop :=
  (itemIndex item = some entry.1 ∧ entry.1 < expectedEmbeddings) ∧
    readEmbedding readF32 item = some entry.2

theorem decodeItem_eq_ok {next : List (Option Embedding)} {item : Json} :
    decodeItem readF32 expectedEmbeddings ordered item = .ok next ↔
      ∃ entry, StandsFor readF32 expectedEmbeddings item entry ∧
        Slots.place ordered entry = some next := by
  simp only [decodeItem, bind_eq_ok, orMalformed_eq_ok, readIndex_eq_some, StandsFor, Prod.exists]
  constructor
  · rintro ⟨index, isIndex, embedding, isEmbedding, placed⟩
    exact ⟨index, embedding, ⟨isIndex, isEmbedding⟩, placed⟩
  · rintro ⟨index, embedding, ⟨isIndex, isEmbedding⟩, placed⟩
    exact ⟨index, isIndex, embedding, isEmbedding, placed⟩

theorem foldlM_decodeItem {result : List (Option Embedding)} :
    items.foldlM (decodeItem readF32 expectedEmbeddings) ordered = .ok result ↔
      ∃ entries, List.Forall₂ (StandsFor readF32 expectedEmbeddings) items entries ∧
        entries.foldlM Slots.place ordered = some result := by
  induction items generalizing ordered with
  | nil =>
    constructor
    · rintro ⟨⟩
      exact ⟨[], .nil, rfl⟩
    · rintro ⟨entries, reads, placed⟩
      cases reads
      cases placed
      rfl
  | cons item rest ih =>
    simp only [List.foldlM_cons, bind_eq_ok, decodeItem_eq_ok, ih]
    constructor
    · rintro ⟨next, ⟨entry, reads, placed⟩, entries, others, more⟩
      refine ⟨entry :: entries, .cons reads others, ?_⟩
      rw [List.foldlM_cons, placed]
      exact more
    · rintro ⟨entries, reads, all⟩
      obtain ⟨entry, others, first, more, rfl⟩ := List.forall₂_cons_left_iff.1 reads
      rw [List.foldlM_cons, Option.bind_eq_bind, Option.bind_eq_some_iff] at all
      obtain ⟨next, placed, last⟩ := all
      exact ⟨next, ⟨entry, first, placed⟩, others, more, last⟩

theorem entry_lt (reads : List.Forall₂ (StandsFor readF32 expectedEmbeddings) items entries) :
    ∀ entry ∈ entries, entry.1 < expectedEmbeddings := by
  induction reads with
  | nil => simp
  | cons first _ ih => exact List.forall_mem_cons.2 ⟨first.1.2, ih⟩

/-- The loop accepts the items of different indexes, and fills the slots with them. -/
theorem decodeItems_eq_ok :
    decodeItems readF32 items expectedEmbeddings = .ok ordered ↔
      ∃ entries, List.Forall₂ (StandsFor readF32 expectedEmbeddings) items entries ∧
        (entries.map Prod.fst).Nodup ∧ ordered = Slots.filled expectedEmbeddings entries := by
  rw [decodeItems, foldlM_decodeItem]
  refine exists_congr fun entries => and_congr_right fun reads => ?_
  rw [← Slots.filled_nil, Slots.foldlM_place (by simp), List.nil_append]
  exact ⟨fun placed => placed.2, fun placed => ⟨entry_lt readF32 reads, placed⟩⟩

theorem map_itemIndex (reads : List.Forall₂ (StandsFor readF32 expectedEmbeddings) items entries) :
    items.map itemIndex = (entries.map Prod.fst).map some := by
  induction reads with
  | nil => rfl
  | cons first _ ih => rw [List.map_cons, List.map_cons, List.map_cons, first.1.1, ih]

theorem exists_entry (reads : List.Forall₂ (StandsFor readF32 expectedEmbeddings) items entries) :
    ∀ item ∈ items, ∃ entry ∈ entries, StandsFor readF32 expectedEmbeddings item entry := by
  induction reads with
  | nil => simp
  | cons first _ ih =>
    refine List.forall_mem_cons.2 ⟨⟨_, List.mem_cons_self, first⟩, fun item isItem => ?_⟩
    obtain ⟨entry, member, read⟩ := ih item isItem
    exact ⟨entry, List.mem_cons_of_mem _ member, read⟩

/-- Items that can all be read stand for entries. -/
theorem exists_entries
    (readable : ∀ item ∈ items, ∃ entry, StandsFor readF32 expectedEmbeddings item entry) :
    ∃ entries, List.Forall₂ (StandsFor readF32 expectedEmbeddings) items entries := by
  induction items with
  | nil => exact ⟨[], .nil⟩
  | cons item rest ih =>
    obtain ⟨⟨entry, first⟩, others⟩ := List.forall_mem_cons.1 readable
    obtain ⟨entries, more⟩ := ih others
    exact ⟨entry :: entries, .cons first more⟩

/-- The count, the range and the duplicates checked, all slots are filled. -/
theorem decodeItems_complete (decoded : decodeItems readF32 items items.length = .ok ordered) :
    ∃ (entries : List (Nat × Embedding)) (embeddings : List Embedding),
      List.Forall₂ (StandsFor readF32 items.length) items entries ∧
      (entries.map Prod.fst).Perm (List.range items.length) ∧
      Slots.filled items.length entries = embeddings.map some ∧ ordered = embeddings.map some := by
  obtain ⟨entries, reads, once, rfl⟩ := (decodeItems_eq_ok readF32).1 decoded
  have below := entry_lt readF32 reads
  rw [reads.length_eq] at below ⊢
  obtain ⟨all, embeddings, full⟩ := Slots.filled_of_length once below
  exact ⟨entries, embeddings, by rwa [← reads.length_eq], all, full, full⟩

theorem decodeEmbeddings_eq_ok {value : Json} {embeddings : List Embedding} :
    decodeEmbeddings readF32 value expectedEmbeddings = .ok embeddings ↔
      ∃ (data : List Json) (entries : List (Nat × Embedding)),
        (value.get "data").bind Json.asArray = some data ∧
        List.Forall₂ (StandsFor readF32 expectedEmbeddings) data entries ∧
        (entries.map Prod.fst).Perm (List.range expectedEmbeddings) ∧
        Slots.filled expectedEmbeddings entries = embeddings.map some := by
  simp only [decodeEmbeddings, bind_eq_ok, orMalformed_eq_ok]
  constructor
  · rintro ⟨data, isData, decoded⟩
    split_ifs at decoded with counted
    obtain ⟨ordered, filled, collected⟩ := bind_eq_ok.1 decoded
    obtain rfl := not_not.1 counted
    obtain ⟨entries, all, reads, perm, full, rfl⟩ := decodeItems_complete readF32 filled
    rw [orMalformed_eq_ok, Slots.mapM_id_eq_some] at collected
    exact ⟨data, entries, isData, reads, perm, full.trans collected⟩
  · rintro ⟨data, entries, isData, reads, perm, full⟩
    have counted : data.length = expectedEmbeddings := by
      rw [reads.length_eq, ← List.length_map (f := Prod.fst), perm.length_eq, List.length_range]
    refine ⟨data, isData, ?_⟩
    rw [if_neg (not_not.2 counted), bind_eq_ok]
    exact ⟨_, (decodeItems_eq_ok readF32).2 ⟨entries, reads, perm.nodup_iff.2 List.nodup_range, rfl⟩,
      orMalformed_eq_ok.2 (Slots.mapM_id_eq_some.2 full)⟩

/-- **An answer is accepted when its items are the inputs' one to one.**  The embeddings are then
those of the items in the order of their indexes, and the slots are never found incomplete after
the loop. -/
theorem decode_embeddings_iff (value : Json) (expectedEmbeddings : Nat) :
    ((∃ embeddings, decodeEmbeddings readF32 value expectedEmbeddings = .ok embeddings) ↔
      ∃ (data : List Json) (indexes : List Nat), (value.get "data").bind Json.asArray = some data ∧
        data.map itemIndex = indexes.map some ∧ indexes.Perm (List.range expectedEmbeddings) ∧
        ∀ item ∈ data, ∃ embedding, readEmbedding readF32 item = some embedding) ∧
    (∀ embeddings, decodeEmbeddings readF32 value expectedEmbeddings = .ok embeddings →
      ∃ data : List Json, (value.get "data").bind Json.asArray = some data ∧
        embeddings.length = expectedEmbeddings ∧
        ∀ item ∈ data, ∀ index, itemIndex item = some index →
          embeddings[index]? = readEmbedding readF32 item) ∧
    ∀ items ordered, items.length = expectedEmbeddings →
      decodeItems readF32 items expectedEmbeddings = .ok ordered → ordered.mapM id ≠ none := by
  simp only [decodeEmbeddings_eq_ok]
  refine ⟨⟨?_, ?_⟩, ?_, ?_⟩
  · rintro ⟨embeddings, data, entries, isData, reads, perm, -⟩
    refine ⟨data, _, isData, map_itemIndex readF32 reads, perm, fun item isItem => ?_⟩
    obtain ⟨entry, -, -, isEmbedding⟩ := exists_entry readF32 reads item isItem
    exact ⟨entry.2, isEmbedding⟩
  · rintro ⟨data, indexes, isData, areIndexes, perm, decodes⟩
    have readable : ∀ item ∈ data, ∃ entry, StandsFor readF32 expectedEmbeddings item entry := by
      intro item isItem
      have listed : itemIndex item ∈ indexes.map some := areIndexes ▸ List.mem_map_of_mem isItem
      obtain ⟨index, isIndex, same⟩ := List.mem_map.1 listed
      obtain ⟨embedding, decoded⟩ := decodes item isItem
      exact ⟨(index, embedding), ⟨same.symm, List.mem_range.1 (perm.mem_iff.1 isIndex)⟩, decoded⟩
    obtain ⟨entries, reads⟩ := exists_entries readF32 readable
    have same : entries.map Prod.fst = indexes :=
      List.map_injective_iff.2 (Option.some_injective Nat)
        ((map_itemIndex readF32 reads).symm.trans areIndexes)
    rw [← same] at perm
    have counted : entries.length = expectedEmbeddings := by
      simpa using perm.length_eq
    have below := entry_lt readF32 reads
    subst counted
    obtain ⟨-, embeddings, full⟩ := Slots.filled_of_length (perm.nodup_iff.2 List.nodup_range) below
    exact ⟨embeddings, data, entries, isData, reads, perm, full⟩
  · rintro embeddings ⟨data, entries, isData, reads, perm, full⟩
    refine ⟨data, isData, ?_, fun item isItem index isIndex => ?_⟩
    · simpa [Slots.filled] using (congrArg List.length full).symm
    · obtain ⟨entry, member, ⟨sameIndex, below⟩, isEmbedding⟩ := exists_entry readF32 reads item isItem
      obtain rfl : entry.1 = index := Option.some_injective Nat (sameIndex.symm.trans isIndex)
      have found : entries.lookup entry.1 = some entry.2 :=
        (Slots.lookup_eq_some (perm.nodup_iff.2 List.nodup_range)).2 member
      have slot : (embeddings.map some)[entry.1]? = some (some entry.2) := by
        simp [← full, Slots.filled, below, found]
      rw [isEmbedding]
      simpa using slot
  · rintro items ordered rfl decoded missing
    obtain ⟨-, embeddings, -, -, -, rfl⟩ := decodeItems_complete readF32 decoded
    rw [Slots.mapM_id_eq_some.2 rfl] at missing
    cases missing

end

end Rustee.OpenAi
