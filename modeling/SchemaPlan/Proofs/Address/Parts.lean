import SchemaPlan.Address.Json
import SchemaPlan.Proofs.Address.RoundTrip

/-!
# The parts of an address that was read

An address that is made has parts without a fault. Reading does not look for all of the faults :
it is enough that the boundaries between the parts can be found again, and `read_iff_readable` says
that nothing else is asked of what is read. `make_of_read` : the parts of an address that was read
make the address, unless its host holds a slash or its database path a separator of a query.
-/

namespace SchemaPlan.Address

variable {a : Address}

/-- From the JSON form an address is read exactly if it is a string that is read as a handle. -/
theorem ofJson?_eq_some_iff {value : Json.Value} :
    ofJson? value = some a ↔ ∃ handle, value = .string handle ∧ ofHandle handle = .ok a := by
  cases value with
  | string handle =>
    cases hread : ofHandle handle <;> simp [ofJson?, hread, Except.toOption]
  | _ => simp [ofJson?]

/-- What is read is an address whose parts can be told apart in its handle, and each such address
is read. -/
theorem read_iff_readable : a.Read ↔ a.Readable := by
  constructor
  · rintro (⟨handle, h⟩ | ⟨value, h⟩)
    · exact readable_of_ofHandle h
    · obtain ⟨handle, -, h⟩ := ofJson?_eq_some_iff.1 h
      exact readable_of_ofHandle h
  · intro h
    exact .inl ⟨a.handle, ofHandle_handle h⟩

/-- Of the five faults only two can be left in an address whose parts can be told apart. -/
theorem Readable.fault?_eq (h : a.Readable) : a.fault? =
    if '/' ∈ a.host.toList then some .hostWithSlash
    else if a.DatabaseSeparated then some .databaseWithSeparator
    else none := by
  have hhost : a.host.isEmpty = false := by simpa using h.host_ne_nil
  have hpath : a.path.isEmpty = false := by simpa using h.path_ne_nil
  have hany : (a.database.toList.any fun c => c = '?' || c = '&') = true ↔
      a.DatabaseSeparated := by
    simp [DatabaseSeparated]
  simp only [fault?, hhost, hpath, h.database_head, ne_eq, not_true_eq_false, if_false,
    Bool.false_eq_true, List.contains_iff_mem, hany]

theorem make_eq (a : Address) : make a.host a.tls a.database a.path =
    match a.fault? with
    | none => .ok a
    | some fault => .error (.malformedHandle a.handle fault) := rfl

/-- Read are just the addresses whose parts can be told apart. The parts of such an address make
it again, except if the host holds a slash or the database path a separator. These two faults are
reported, in this order. -/
theorem make_of_read (a : Address) :
    (a.Read ↔ a.Readable) ∧
    (a.Read → make a.host a.tls a.database a.path =
      if '/' ∈ a.host.toList then .error (.malformedHandle a.handle .hostWithSlash)
      else if a.DatabaseSeparated then .error (.malformedHandle a.handle .databaseWithSeparator)
      else .ok a) := by
  refine ⟨read_iff_readable, fun h => ?_⟩
  rw [make_eq, (read_iff_readable.1 h).fault?_eq]
  by_cases hslash : '/' ∈ a.host.toList
  · simp only [hslash, if_true]
  · by_cases hseparated : a.DatabaseSeparated <;> simp only [hslash, hseparated, if_true, if_false]

/-- A handle whose host holds a slash. -/
def slashedHandle : String := "grpc://h/x/?database=/local&path=t"

/-- A handle whose database path holds a separator. -/
def separatedHandle : String := "grpc://h/?database=/lo&cal&path=t"

theorem make_of_read_etn :
    make "h:2135" true "/ru/b1g/etn" "dir/table" = .ok etnAddress ∧
    make "h/x" false "/local" "t" = .error (.malformedHandle slashedHandle .hostWithSlash) := by
  have hetn : etnAddress.Read := .inl ⟨etnHandle, rfl⟩
  have hslashed : (⟨"h/x", false, "/local", "t"⟩ : Address).Read := .inl ⟨slashedHandle, rfl⟩
  exact ⟨((make_of_read _).2 hetn).trans rfl, ((make_of_read _).2 hslashed).trans rfl⟩

/-- Two handles are read as addresses whose parts are refused. -/
theorem make_refuses_read :
    (ofHandle slashedHandle = .ok ⟨"h/x", false, "/local", "t"⟩ ∧
      make "h/x" false "/local" "t" ≠ .ok ⟨"h/x", false, "/local", "t"⟩) ∧
    ofHandle separatedHandle = .ok ⟨"h", false, "/lo&cal", "t"⟩ ∧
      make "h" false "/lo&cal" "t" ≠ .ok ⟨"h", false, "/lo&cal", "t"⟩ := by
  refine ⟨⟨rfl, fun h => ?_⟩, rfl, fun h => ?_⟩
  · have hrefused : make "h/x" false "/local" "t" =
        .error (.malformedHandle slashedHandle .hostWithSlash) := rfl
    rw [hrefused] at h
    cases h
  · have hrefused : make "h" false "/lo&cal" "t" =
        .error (.malformedHandle separatedHandle .databaseWithSeparator) := rfl
    rw [hrefused] at h
    cases h

end SchemaPlan.Address
