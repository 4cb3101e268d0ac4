import Mathlib.Data.List.AList
import Mutiny.Percent

/-!
# Parameters of a screen (`dumb.ts`)

A screen is given its parameters in the query of its path: `objectToSearchParams` writes them, and `URLSearchParams`
reads them.
-/

namespace Mutiny

/-- What `encodeURIComponent` keeps. -/
def unreserved (c : Char) : Bool := c.isAlphanum || ['-', '_', '.', '!', '~', '*', Char.ofNat 39, '(', ')'].contains c

def encode_uri_component (s : String) : String := .ofList (Percent.encode unreserved s.toList)

/-- The object has its keys in the order of `Object.entries`, and `none` for `undefined`. -/
def object_to_search_params (obj : AList fun _ : String => Option String) : String :=
  "&".intercalate <| obj.entries.filterMap fun ⟨key, value⟩ =>
    value.map fun value => encode_uri_component key ++ "=" ++ encode_uri_component value

/-! ## What the browser does -/

namespace URLSearchParams

/-- `lossy` is what the decoder makes of bytes that are no UTF-8. -/
def new (lossy : List UInt8 → String) (init : String) : List (String × String) :=
  let query :=
    match init.toList with
    | '?' :: query => query
    | query => query
  (Percent.parse query).map fun (name, value) => (Percent.of_utf8 lossy name, Percent.of_utf8 lossy value)

/-- `null` for a name that is not there. -/
def get (params : List (String × String)) (name : String) : Option String := params.lookup name

end URLSearchParams

/-! ## Every screen reads what it was given -/

theorem unreserved_reserved : Percent.Reserved unreserved := ⟨by decide, by decide, by decide, by decide⟩

/-- What an object says of its keys. -/
def written (obj : AList fun _ : String => Option String) : List (String × String) :=
  obj.entries.filterMap fun ⟨key, value⟩ => value.map fun value => (key, value)

theorem object_to_search_params_eq (obj : AList fun _ : String => Option String) :
    (object_to_search_params obj).toList =
      Percent.print unreserved ((written obj).map fun pair => (pair.1.toList, pair.2.toList)) := by
  have hpieces : (obj.entries.filterMap fun ⟨key, value⟩ =>
      value.map fun value => encode_uri_component key ++ "=" ++ encode_uri_component value) =
      (written obj).map fun pair => encode_uri_component pair.1 ++ "=" ++ encode_uri_component pair.2 := by
    simp only [written, List.map_filterMap, Option.map_map, Function.comp_def]
  unfold object_to_search_params
  rw [hpieces, String.toList_intercalate, List.map_map, Percent.print, List.map_map]
  refine congrArg _ (List.map_congr_left fun pair _ => ?_)
  simp [encode_uri_component, Percent.piece]

theorem lookup_entries : ∀ {entries : List (Sigma fun _ : String => Option String)}, entries.NodupKeys → ∀ key,
    (entries.filterMap fun ⟨key, value⟩ => value.map fun value => (key, value)).lookup key = (entries.dlookup key).join
  | [], _, _ => rfl
  | ⟨k, value⟩ :: entries, hnodup, key => by
    obtain ⟨hk, hrest⟩ := List.nodupKeys_cons.mp hnodup
    have ih := lookup_entries hrest key
    by_cases hkey : key = k
    · subst hkey
      rw [List.dlookup_cons_eq]
      cases value with
      | some value => simp
      | none => simpa [List.dlookup_eq_none.mpr hk] using ih
    · rw [List.dlookup_cons_ne _ _ hkey, ← ih]
      cases value with
      | some value => simp [List.lookup_cons, beq_eq_false_iff_ne.mpr hkey]
      | none => simp

theorem lookup_written (obj : AList fun _ : String => Option String) (key : String) :
    (written obj).lookup key = (obj.lookup key).join :=
  lookup_entries obj.nodupKeys key

/-- The query has no character that would end it. -/
theorem not_mem_query (obj : AList fun _ : String => Option String) {c : Char}
    (h : unreserved c = false ∧ c ≠ '%' ∧ c ≠ '=' ∧ c ≠ '&' ∧ c.isAlphanum = false) :
    c ∉ (object_to_search_params obj).toList := by
  obtain ⟨hc, hpercent, hequals, hand, halnum⟩ := h
  intro hmem
  rw [object_to_search_params_eq] at hmem
  rcases Percent.mem_print hmem with h | h | h | h | h
  · exact Bool.false_ne_true (hc.symm.trans h)
  · exact hpercent h
  · exact hequals h
  · exact hand h
  · exact Bool.false_ne_true (halnum.symm.trans h)

theorem parse_query (lossy : List UInt8 → String) (obj : AList fun _ : String => Option String) :
    ((Percent.parse (object_to_search_params obj).toList).map fun (name, value) =>
      (Percent.of_utf8 lossy name, Percent.of_utf8 lossy value)) = written obj := by
  rw [object_to_search_params_eq, Percent.parse_print unreserved_reserved, List.map_map, List.map_map]
  refine (List.map_congr_left fun pair _ => ?_).trans (List.map_id _)
  simp [Percent.of_utf8_utf8]

theorem get_search (lossy : List UInt8 → String) (obj : AList fun _ : String => Option String) (key : String) :
    URLSearchParams.get (URLSearchParams.new lossy ("?" ++ object_to_search_params obj)) key = (obj.lookup key).join := by
  have hnew : URLSearchParams.new lossy ("?" ++ object_to_search_params obj) = written obj := by
    unfold URLSearchParams.new
    rw [String.toList_append]
    exact parse_query lossy obj
  rw [URLSearchParams.get, hnew, lookup_written]

theorem get_query (lossy : List UInt8 → String) (obj : AList fun _ : String => Option String) (key : String) :
    URLSearchParams.get (URLSearchParams.new lossy (object_to_search_params obj)) key = (obj.lookup key).join := by
  have hnew : URLSearchParams.new lossy (object_to_search_params obj) = written obj := by
    unfold URLSearchParams.new
    split
    · next query hquery =>
      have hno : '?' ∉ (object_to_search_params obj).toList := not_mem_query obj (by decide)
      rw [hquery] at hno
      exact absurd List.mem_cons_self hno
    · exact parse_query lossy obj
  rw [URLSearchParams.get, hnew, lookup_written]

/-- A screen reads each parameter as it was given, whatever the name and the value, and none that was `undefined`. The
query has no character that would end it. -/
theorem search_params_round_trip (lossy : List UInt8 → String) (obj : AList fun _ : String => Option String)
    (key : String) :
    URLSearchParams.get (URLSearchParams.new lossy ("?" ++ object_to_search_params obj)) key = (obj.lookup key).join ∧
      '#' ∉ (object_to_search_params obj).toList ∧ '?' ∉ (object_to_search_params obj).toList :=
  ⟨get_search lossy obj key, not_mem_query obj (by decide), not_mem_query obj (by decide)⟩

/-- A name and a value that have to be written out, and a name that is not given. -/
example : object_to_search_params ((∅ : AList _).insert "for what?" (some "a&b=c 100%") |>.insert "amount" none) =
    "for%20what%3F=a%26b%3Dc%20100%25" := by
  decide

end Mutiny
