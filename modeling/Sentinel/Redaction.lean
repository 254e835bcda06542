import Sentinel.Dict
import Mathlib.Data.Int.Notation

namespace Sentinel.Redaction

variable {σ : Type*}

/-- What a log call passes on. `σ` are the scalars that are no strings. -/
inductive Value (σ : Type*)
  | str (s : String)
  | scalar (x : σ)
  | dict (entries : List (String × Value σ))
  | list (items : List (Value σ))
  | tuple (items : List (Value σ))

inductive Json
  | str (s : String)
  | scalar (text : String)
  | object (members : List (String × Json))
  | array (items : List Json)

def redactedKeys : List String :=
  ["authorization", "cookie", "api_key", "api-key", "x-api-key", "password"]

section

variable (lower : String → String)

def sensitive (key : String) : Bool := lower key ∈ redactedKeys

mutual

def redact : Value σ → Value σ
  | .dict entries => .dict (redactEntries entries)
  | .list items => .list (redactItems items)
  | v => v

def redactEntries : List (String × Value σ) → List (String × Value σ)
  | [] => []
  | (k, v) :: rest =>
    (k, if sensitive lower k then .str "***REDACTED***" else redact v) :: redactEntries rest

def redactItems : List (Value σ) → List (Value σ)
  | [] => []
  | v :: rest => redact v :: redactItems rest

end

end

section

variable (render : σ → String)

mutual

/-- `orjson.dumps`: a tuple becomes an array as a list does. -/
def dumps : Value σ → Json
  | .str s => .str s
  | .scalar x => .scalar (render x)
  | .dict entries => .object (dumpsEntries entries)
  | .list items => .array (dumpsItems items)
  | .tuple items => .array (dumpsItems items)

def dumpsEntries : List (String × Value σ) → List (String × Json)
  | [] => []
  | (k, v) :: rest => (k, dumps v) :: dumpsEntries rest

def dumpsItems : List (Value σ) → List Json
  | [] => []
  | v :: rest => dumps v :: dumpsItems rest

end

end

section

variable (lower : String → String) (s : String)

mutual

/-- The value with `s` in place of everything that is stored under a sensitive key. -/
def fill : Value σ → Value σ
  | .str t => .str t
  | .scalar x => .scalar x
  | .dict entries => .dict (fillEntries entries)
  | .list items => .list (fillItems items)
  | .tuple items => .tuple (fillItems items)

def fillEntries : List (String × Value σ) → List (String × Value σ)
  | [] => []
  | (k, v) :: rest => (k, if sensitive lower k then .str s else fill v) :: fillEntries rest

def fillItems : List (Value σ) → List (Value σ)
  | [] => []
  | v :: rest => fill v :: fillItems rest

end

end

section

variable (lower : String → String)

mutual

def plain : Value σ → Bool
  | .str _ => true
  | .scalar _ => true
  | .dict entries => plainEntries entries
  | .list items => plainItems items
  | .tuple items => plainItems items

def plainEntries : List (String × Value σ) → Bool
  | [] => true
  | (k, v) :: rest => (!sensitive lower k && plain v) && plainEntries rest

def plainItems : List (Value σ) → Bool
  | [] => true
  | v :: rest => plain v && plainItems rest

end

mutual

/-- No sensitive key lies below a tuple, outside of what is redacted anyway. -/
def covered : Value σ → Bool
  | .str _ => true
  | .scalar _ => true
  | .dict entries => coveredEntries entries
  | .list items => coveredItems items
  | .tuple items => plainItems lower items

def coveredEntries : List (String × Value σ) → Bool
  | [] => true
  | (k, v) :: rest => (sensitive lower k || covered v) && coveredEntries rest

def coveredItems : List (Value σ) → Bool
  | [] => true
  | v :: rest => covered v && coveredItems rest

end

end

@[elab_as_elim, induction_eliminator]
theorem Value.ind {P : Value σ → Prop} (str : ∀ s, P (.str s)) (scalar : ∀ x, P (.scalar x))
    (dict : ∀ entries, (∀ e ∈ entries, P e.2) → P (.dict entries))
    (list : ∀ items, (∀ v ∈ items, P v) → P (.list items))
    (tuple : ∀ items, (∀ v ∈ items, P v) → P (.tuple items)) (v : Value σ) : P v := by
  refine @Value.rec σ P (fun entries => ∀ e ∈ entries, P e.2) (fun items => ∀ v ∈ items, P v)
    (fun e => P e.2) str scalar dict list tuple ?_ ?_ ?_ ?_ ?_ v
  · exact fun e he => absurd he List.not_mem_nil
  · exact fun e entries he hentries => List.forall_mem_cons.mpr ⟨he, hentries⟩
  · exact fun v hv => absurd hv List.not_mem_nil
  · exact fun v items hv hitems => List.forall_mem_cons.mpr ⟨hv, hitems⟩
  · exact fun k v hv => hv

section

variable {α β : Type*} {l : List α}

theorem eq_map_of_cons {g : List α → List β} {f : α → β} (hnil : g [] = [])
    (hcons : ∀ a l, g (a :: l) = f a :: g l) : g l = l.map f := by
  induction l with
  | nil => exact hnil
  | cons a l ih => rw [hcons, ih, List.map_cons]

theorem eq_all_of_cons {g : List α → Bool} {p : α → Bool} (hnil : g [] = true)
    (hcons : ∀ a l, g (a :: l) = (p a && g l)) : g l = l.all p := by
  induction l with
  | nil => exact hnil
  | cons a l ih => rw [hcons, ih, List.all_cons]

end

section

variable (lower : String → String) (render : σ → String) (s : String)
  (entries : List (String × Value σ)) (items : List (Value σ))

theorem redactEntries_eq : redactEntries lower entries = entries.map (fun e =>
    (e.1, if sensitive lower e.1 then .str "***REDACTED***" else redact lower e.2)) :=
  eq_map_of_cons rfl fun _ _ => rfl

theorem redactItems_eq : redactItems lower items = items.map (redact lower) :=
  eq_map_of_cons rfl fun _ _ => rfl

theorem dumpsEntries_eq :
    dumpsEntries render entries = entries.map (fun e => (e.1, dumps render e.2)) :=
  eq_map_of_cons rfl fun _ _ => rfl

theorem dumpsItems_eq : dumpsItems render items = items.map (dumps render) :=
  eq_map_of_cons rfl fun _ _ => rfl

theorem fillEntries_eq : fillEntries lower s entries = entries.map (fun e =>
    (e.1, if sensitive lower e.1 then .str s else fill lower s e.2)) :=
  eq_map_of_cons rfl fun _ _ => rfl

theorem fillItems_eq : fillItems lower s items = items.map (fill lower s) :=
  eq_map_of_cons rfl fun _ _ => rfl

theorem plainEntries_eq : plainEntries lower entries =
    entries.all (fun e => !sensitive lower e.1 && plain lower e.2) :=
  eq_all_of_cons rfl fun _ _ => rfl

theorem plainItems_eq : plainItems lower items = items.all (plain lower) :=
  eq_all_of_cons rfl fun _ _ => rfl

theorem coveredEntries_eq : coveredEntries lower entries =
    entries.all (fun e => sensitive lower e.1 || covered lower e.2) :=
  eq_all_of_cons rfl fun _ _ => rfl

theorem coveredItems_eq : coveredItems lower items = items.all (covered lower) :=
  eq_all_of_cons rfl fun _ _ => rfl

end

section

variable {lower : String → String} {render : σ → String} {s t : String}

theorem fill_fill (v : Value σ) : fill lower s (fill lower t v) = fill lower s v := by
  induction v with
  | str _ => rfl
  | scalar _ => rfl
  | dict entries ih =>
    simp only [fill, fillEntries_eq, List.map_map]
    congr 1
    apply List.map_congr_left
    intro e he
    by_cases h : sensitive lower e.1 = true
    · simp [h]
    · simp [h, ih e he]
  | list items ih =>
    simp only [fill, fillItems_eq, List.map_map]
    congr 1
    exact List.map_congr_left ih
  | tuple items ih =>
    simp only [fill, fillItems_eq, List.map_map]
    congr 1
    exact List.map_congr_left ih

theorem fill_of_plain {v : Value σ} (h : plain lower v = true) : fill lower s v = v := by
  induction v with
  | str _ => rfl
  | scalar _ => rfl
  | dict entries ih =>
    rw [plain, plainEntries_eq, List.all_eq_true] at h
    rw [fill, fillEntries_eq]
    congr 1
    refine (List.map_congr_left fun e he => ?_).trans (List.map_id entries)
    obtain ⟨hkey, hvalue⟩ := Bool.and_eq_true_iff.mp (h e he)
    rw [Bool.not_eq_true'] at hkey
    simp [hkey, ih e he hvalue]
  | list items ih =>
    rw [plain, plainItems_eq, List.all_eq_true] at h
    rw [fill, fillItems_eq]
    congr 1
    exact (List.map_congr_left fun v hv => ih v hv (h v hv)).trans (List.map_id items)
  | tuple items ih =>
    rw [plain, plainItems_eq, List.all_eq_true] at h
    rw [fill, fillItems_eq]
    congr 1
    exact (List.map_congr_left fun v hv => ih v hv (h v hv)).trans (List.map_id items)

theorem plain_fill (v : Value σ) : plain lower (fill lower s v) = true ↔ plain lower v = true := by
  induction v with
  | str _ => rfl
  | scalar _ => rfl
  | dict entries ih =>
    simp only [fill, plain, plainEntries_eq, fillEntries_eq, List.all_eq_true, List.forall_mem_map]
    apply forall₂_congr
    intro e he
    by_cases h : sensitive lower e.1 = true
    · simp [h]
    · simp [h, ih e he]
  | list items ih =>
    simp only [fill, plain, plainItems_eq, fillItems_eq, List.all_eq_true, List.forall_mem_map]
    exact forall₂_congr ih
  | tuple items ih =>
    simp only [fill, plain, plainItems_eq, fillItems_eq, List.all_eq_true, List.forall_mem_map]
    exact forall₂_congr ih

theorem covered_fill (v : Value σ) :
    covered lower (fill lower s v) = true ↔ covered lower v = true := by
  induction v with
  | str _ => rfl
  | scalar _ => rfl
  | dict entries ih =>
    simp only [fill, covered, coveredEntries_eq, fillEntries_eq, List.all_eq_true,
      List.forall_mem_map]
    apply forall₂_congr
    intro e he
    by_cases h : sensitive lower e.1 = true
    · simp [h]
    · simp [h, ih e he]
  | list items ih =>
    simp only [fill, covered, coveredItems_eq, fillItems_eq, List.all_eq_true, List.forall_mem_map]
    exact forall₂_congr ih
  | tuple items _ =>
    simp only [fill, covered, plainItems_eq, fillItems_eq, List.all_eq_true, List.forall_mem_map]
    exact forall₂_congr fun v _ => plain_fill v

theorem redact_of_covered {v : Value σ} (h : covered lower v = true) :
    redact lower v = fill lower "***REDACTED***" v := by
  induction v with
  | str _ => rfl
  | scalar _ => rfl
  | dict entries ih =>
    rw [covered, coveredEntries_eq, List.all_eq_true] at h
    rw [redact, fill, redactEntries_eq, fillEntries_eq]
    congr 1
    apply List.map_congr_left
    intro e he
    by_cases hkey : sensitive lower e.1 = true
    · simp [hkey]
    · have hvalue := (Bool.or_eq_true_iff.mp (h e he)).resolve_left hkey
      simp [hkey, ih e he hvalue]
  | list items ih =>
    rw [covered, coveredItems_eq, List.all_eq_true] at h
    rw [redact, fill, redactItems_eq, fillItems_eq]
    congr 1
    exact List.map_congr_left fun v hv => ih v hv (h v hv)
  | tuple items _ =>
    have hplain : plain lower (.tuple items) = true := h
    rw [fill_of_plain hplain]
    rfl

theorem plain_of_dumps_eq (hst : s ≠ t) {v : Value σ}
    (h : dumps render (fill lower s v) = dumps render (fill lower t v)) : plain lower v = true := by
  induction v with
  | str _ => rfl
  | scalar _ => rfl
  | dict entries ih =>
    simp only [fill, dumps, fillEntries_eq, dumpsEntries_eq, List.map_map, Json.object.injEq,
      List.map_inj_left, Function.comp_apply, Prod.mk.injEq, true_and] at h
    rw [plain, plainEntries_eq, List.all_eq_true]
    intro e he
    have hvalue := h e he
    by_cases hkey : sensitive lower e.1 = true
    · simp [hkey, dumps, hst] at hvalue
    · simp only [hkey, Bool.false_eq_true, ↓reduceIte] at hvalue
      simp [hkey, ih e he hvalue]
  | list items ih =>
    simp only [fill, dumps, fillItems_eq, dumpsItems_eq, List.map_map, Json.array.injEq,
      List.map_inj_left, Function.comp_apply] at h
    rw [plain, plainItems_eq, List.all_eq_true]
    exact fun v hv => ih v hv (h v hv)
  | tuple items ih =>
    simp only [fill, dumps, fillItems_eq, dumpsItems_eq, List.map_map, Json.array.injEq,
      List.map_inj_left, Function.comp_apply] at h
    rw [plain, plainItems_eq, List.all_eq_true]
    exact fun v hv => ih v hv (h v hv)

theorem covered_of_dumps_eq (hst : s ≠ t) {v : Value σ}
    (h : dumps render (redact lower (fill lower s v)) =
      dumps render (redact lower (fill lower t v))) : covered lower v = true := by
  induction v with
  | str _ => rfl
  | scalar _ => rfl
  | dict entries ih =>
    simp only [fill, redact, dumps, fillEntries_eq, redactEntries_eq, dumpsEntries_eq,
      List.map_map, Json.object.injEq, List.map_inj_left, Function.comp_apply, Prod.mk.injEq,
      true_and] at h
    rw [covered, coveredEntries_eq, List.all_eq_true]
    intro e he
    have hvalue := h e he
    by_cases hkey : sensitive lower e.1 = true
    · simp [hkey]
    · simp only [hkey, Bool.false_eq_true, ↓reduceIte] at hvalue
      simp [ih e he hvalue]
  | list items ih =>
    simp only [fill, redact, dumps, fillItems_eq, redactItems_eq, dumpsItems_eq, List.map_map,
      Json.array.injEq, List.map_inj_left, Function.comp_apply] at h
    rw [covered, coveredItems_eq, List.all_eq_true]
    exact fun v hv => ih v hv (h v hv)
  | tuple items _ =>
    have hplain : plain lower (.tuple items) = true := plain_of_dumps_eq hst h
    exact hplain

end

def Similar (lower : String → String) (v w : Value σ) : Prop := fill lower "" v = fill lower "" w

structure LogRecord where
  levelname : String
  message : String
  name : String
  excInfo : Option String := none

/-- `JsonFormatter.format`. The exception is given as `formatException` writes it. -/
def format (lower : String → String) (render : σ → String) (timestamp : String)
    (record : LogRecord) (extra : Option (List (String × Value σ))) : Json :=
  let payload : Dict String (Value σ) :=
    ((((Dict.empty.set "timestamp" (.str timestamp)).set "level" (.str record.levelname)).set
      "message" (.str record.message)).set "logger" (.str record.name))
  let payload := match extra with
    | some extra =>
      (redactEntries lower extra).foldl
        (fun (d : Dict String (Value σ)) (e : String × Value σ) => d.set e.1 e.2) payload
    | none => payload
  let payload := match record.excInfo with
    | some text => payload.set "exception" (.str text)
    | none => payload
  dumps render (.dict payload.items)

theorem redact_eq_of_similar {lower : String → String} {v w : Value σ}
    (h : covered lower v = true) (hsimilar : Similar lower v w) :
    redact lower v = redact lower w := by
  have hw : covered lower w = true := by
    rw [← covered_fill (s := ""), ← hsimilar, covered_fill]
    exact h
  rw [redact_of_covered h, redact_of_covered hw, ← fill_fill (t := "") v, hsimilar, fill_fill]

/-- No value under a sensitive key has an influence on what is written exactly when no sensitive
key lies below a tuple. -/
theorem redaction_barrier_iff (lower : String → String) (render : σ → String) (v : Value σ) :
    (∀ w, Similar lower v w →
      dumps render (redact lower v) = dumps render (redact lower w) ∧
      ∀ extra extra', v = .dict extra → w = .dict extra' → ∀ timestamp record,
        format lower render timestamp record (some extra) =
          format lower render timestamp record (some extra')) ↔ covered lower v = true := by
  constructor
  · intro h
    have hfill : ∀ s, dumps render (redact lower v) =
        dumps render (redact lower (fill lower s v)) :=
      fun s => (h (fill lower s v) (fill_fill v).symm).1
    exact covered_of_dumps_eq (show "a" ≠ "b" by decide) ((hfill "a").symm.trans (hfill "b"))
  · intro h w hsimilar
    have hredact := redact_eq_of_similar h hsimilar
    refine ⟨by rw [hredact], ?_⟩
    rintro extra extra' rfl rfl timestamp record
    have hentries : redactEntries lower extra = redactEntries lower extra' :=
      Value.dict.inj hredact
    simp only [format, hentries]

def headers (container : List (Value ℤ) → Value ℤ) (secret : String) : Value ℤ :=
  .dict [("headers", container [.dict [("Authorization", .str secret)]])]

theorem sensitive_headers : sensitive String.toLower "headers" = false ∧
    sensitive String.toLower "Authorization" = true := by decide +kernel

theorem listed_header_redacted :
    dumps (toString : ℤ → String) (redact String.toLower (headers .list "a")) =
      dumps toString (redact String.toLower (headers .list "b")) := by
  have hcovered : covered String.toLower (headers .list "a") = true := by
    simp [headers, covered, coveredEntries, coveredItems, sensitive_headers]
  have hsimilar : Similar String.toLower (headers .list "a") (headers .list "b") := by
    simp [Similar, headers, fill, fillEntries, fillItems, sensitive_headers]
  exact ((redaction_barrier_iff String.toLower toString _).mpr hcovered _ hsimilar).1

/-- Headers in a tuple are written as they are. -/
theorem header_in_tuple_leaks :
    Similar String.toLower (headers .tuple "a") (headers .tuple "b") ∧
    dumps (toString : ℤ → String) (redact String.toLower (headers .tuple "a")) ≠
      dumps toString (redact String.toLower (headers .tuple "b")) := by
  constructor
  · simp [Similar, headers, fill, fillEntries, fillItems, sensitive_headers]
  · simp [headers, redact, redactEntries, dumps, dumpsEntries, dumpsItems, sensitive_headers]

end Sentinel.Redaction
