import PartitionPruning.Proofs.Tree.Json.Reading
import PartitionPruning.Proofs.Tree.Json.Sorted

/-! A tree comes back from its text: as it was from the text on one line and from the indented text,
and with all fields sorted from the canonical text, which therefore is the same for two trees if and
only if they are the same up to the order of fields. -/

namespace PartitionPruning

namespace Json

theorem endsValue_nil : EndsValue [] := nofun

theorem Spells.readAll {item : Reader Node} {cs : List Char} {n : Node} (h : Spells item cs n) :
    readAll item (.ofList cs) = some n := by
  have hread : item cs = some (n, []) := by simpa using h.reads [] endsValue_nil
  rw [Json.readAll, String.toList_ofList, hread]
  rfl

theorem spells_compact {limit : Nat} {n : Node} (h : n.Printable limit) :
    Spells (readValue limit) (compact n) n := by
  rw [Layout.compact_eq_text 0]
  exact spells_text .oneLine h 0

theorem spells_indented {limit : Nat} {n : Node} (h : n.Printable limit) :
    Spells (readValue limit) (indented 0 n) n := by
  rw [Layout.indented_eq_text]
  exact spells_text .pretty h 0

/-- Trees with the same text on one line are the same, however deep they are nested. -/
theorem compact_inj {a b : Node} {k l : Nat} (ha : a.Printable k) (hb : b.Printable l) :
    compact a = compact b ↔ a = b := by
  refine ⟨fun h => ?_, congrArg compact⟩
  -- One reader reads both texts, with the larger of the limits.
  have hreadA := (spells_compact (ha.mono (Nat.le_max_left k l))).readAll
  have hreadB := (spells_compact (hb.mono (Nat.le_max_right k l))).readAll
  rw [h, hreadB] at hreadA
  exact (Option.some.inj hreadA).symm

end Json

theorem toCanonicalJson_eq_iff {n m : Node} (hn : n.NoFloats) (hm : m.NoFloats)
    (hkeysN : n.DistinctKeys) (hkeysM : m.DistinctKeys) :
    n.toCanonicalJson = m.toCanonicalJson ↔ n.Reordered m := by
  have hprintN := Json.printable_sorted ⟨hn, hkeysN, Nat.le_refl n.depth⟩
  have hprintM := Json.printable_sorted ⟨hm, hkeysM, Nat.le_refl m.depth⟩
  rw [Node.toCanonicalJson, Node.toCanonicalJson, Node.toJson, Node.toJson, String.ofList_inj,
    Json.compact_inj hprintN hprintM, Json.sorted_eq_iff hkeysN hkeysM]

/-- Reading gives a tree back from its text, whatever its strings, and from its canonical text with
the fields of all objects sorted. Two trees have the same canonical text if and only if they are the
same up to the order of fields. -/
theorem readTree_toJson {n : Node} (hfloats : n.NoFloats) (hkeys : n.DistinctKeys)
    (hdepth : n.depth ≤ 127) :
    Json.readTree n.toJson = some n ∧ Json.readTree n.toPrettyJson = some n ∧
      (∃ r, Json.readTree n.toCanonicalJson = some r ∧ n.Reordered r ∧ r.SortedKeys) ∧
      ∀ m : Node, m.NoFloats → m.DistinctKeys →
        (n.toCanonicalJson = m.toCanonicalJson ↔ n.Reordered m) := by
  have hprint : n.Printable Json.nestingLimit := ⟨hfloats, hkeys, hdepth⟩
  refine ⟨(Json.spells_compact hprint).readAll, (Json.spells_indented hprint).readAll,
    ⟨Json.sorted n, ?_, Json.reordered_sorted hkeys, Json.sortedKeys_sorted hkeys⟩,
    fun m hm hkeysM => toCanonicalJson_eq_iff hfloats hm hkeys hkeysM⟩
  exact (Json.spells_compact (Json.printable_sorted hprint)).readAll

/-- A tree with escaped characters, empty containers and the ends of the range of integers, its
fields in one order or in the other. -/
def nestedTree (swapped : Bool) : Node :=
  let ends : Node := .array [.number (.integer leastInteger (by decide)),
    .number (.integer (integerBound - 1) (by decide)), .array [], .object []]
  let inner : Fields Node := [("é\"", .null), ("a\n", .string "\u0001\\")]
  if swapped then .object [("a", .object inner.reverse), ("b", ends)]
  else .object [("b", ends), ("a", .object inner)]

theorem readTree_toJson_nested :
    Json.readTree (nestedTree false).toJson = some (nestedTree false) ∧
      Json.readTree (nestedTree false).toPrettyJson = some (nestedTree false) ∧
      (∃ r, Json.readTree (nestedTree false).toCanonicalJson = some r ∧
        (nestedTree false).Reordered r ∧ r.SortedKeys) ∧
      ((nestedTree false).toCanonicalJson = (nestedTree true).toCanonicalJson ↔
        (nestedTree false).Reordered (nestedTree true)) := by
  obtain ⟨hcompact, hpretty, hcanonical, hsame⟩ :=
    readTree_toJson (n := nestedTree false) (by decide) (by decide) (by decide)
  exact ⟨hcompact, hpretty, hcanonical, hsame (nestedTree true) (by decide) (by decide)⟩

end PartitionPruning
