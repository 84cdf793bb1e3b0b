import IRAttributes.Proofs.Exchange
import IRAttributes.Proofs.Revision

/-!
The forms in which attributes are kept. An owned collection keeps them as they
are, a context in native form, which has keys of its own and loses what it has
no room for. In either form they are a keyed list, and what is put or erased
there is put or erased in the list that is read back. So the laws of keyed lists
are laws of both forms, for what is kept and for what is read.
-/
namespace IRAttributes

structure Form (ν κ : Type) [DecidableEq κ] where
  key : ν → κ
  write : Attribute → ν
  writeKey : Key → κ
  read : ν → Option Attribute
  /-- What the length of a list is told as. -/
  size : Nat → Nat
  key_write : ∀ v, key (write v) = writeKey v.key
  writeKey_injective : ∀ j k, writeKey j = writeKey k → j = k
  read_put : ∀ v, v.WellFormed → ∀ l, (KeyedList.put key (write v) l).filterMap read =
    KeyedList.put Attribute.key v (l.filterMap read)
  read_erase : ∀ k, k.isBlank = false → ∀ l, (KeyedList.erase key (writeKey k) l).filterMap read =
    KeyedList.erase Attribute.key k (l.filterMap read)
  unique_read : ∀ l, KeyedList.UniqueKeys key l →
    KeyedList.UniqueKeys Attribute.key (l.filterMap read)

namespace Form

/-- Attributes as they are. -/
def plain : Form Attribute Key where
  key := Attribute.key
  write v := v
  writeKey k := k
  read := some
  size n := n
  key_write _ := rfl
  writeKey_injective _ _ h := h
  read_put v _ l := by rw [List.filterMap_some, List.filterMap_some]
  read_erase k _ l := by rw [List.filterMap_some, List.filterMap_some]
  unique_read l h := by rwa [List.filterMap_some]

/-- Attributes the way a context keeps them, with a length of 32 bits. -/
def native : Form NativeAttribute NativeKey where
  key := NativeAttribute.key
  write := NativeAttribute.ofAttribute
  writeKey := Key.native
  read := NativeAttribute.toAttribute?
  size n := (UInt32.ofNat n).toNat
  key_write := NativeAttribute.key_ofAttribute
  writeKey_injective _ _ := Key.native_injective
  read_put _ hv := NativeAttribute.filterMap_put hv
  read_erase _ hk := NativeAttribute.filterMap_erase hk
  unique_read _ := NativeAttribute.uniqueKeys_toAttribute?

variable {ν κ : Type} [DecidableEq κ] (form : Form ν κ) {v w : Attribute}

/-- What is read of a list. -/
def list (l : List ν) : List Attribute := l.filterMap form.read

def put (v : Attribute) (l : List ν) : List ν := KeyedList.put form.key (form.write v) l

def erase (k : Key) (l : List ν) : List ν := KeyedList.erase form.key (form.writeKey k) l

def putAll (vs : List Attribute) (l : List ν) : List ν :=
  KeyedList.putAll form.key (vs.map form.write) l

def Unique (l : List ν) : Prop := KeyedList.UniqueKeys form.key l

theorem list_plain (l : List Attribute) : plain.list l = l := List.filterMap_some

variable {form}

theorem Unique.put {l : List ν} (h : form.Unique l) (v : Attribute) :
    form.Unique (form.put v l) :=
  KeyedList.uniqueKeys_put form.key (form.write v) l h

theorem Unique.erase {l : List ν} (h : form.Unique l) (k : Key) :
    form.Unique (form.erase k l) :=
  KeyedList.uniqueKeys_erase form.key (form.writeKey k) l h

theorem Unique.list {l : List ν} (h : form.Unique l) :
    KeyedList.UniqueKeys Attribute.key (form.list l) :=
  form.unique_read l h

theorem list_put (hv : v.WellFormed) (l : List ν) :
    form.list (form.put v l) = KeyedList.put Attribute.key v (form.list l) :=
  form.read_put v hv l

theorem list_erase {k : Key} (hk : k.isBlank = false) (l : List ν) :
    form.list (form.erase k l) = KeyedList.erase Attribute.key k (form.list l) :=
  form.read_erase k hk l

theorem list_putAll {vs : List Attribute} (hvs : ∀ v ∈ vs, v.WellFormed) (l : List ν) :
    form.list (form.putAll vs l) = KeyedList.putAll Attribute.key vs (form.list l) := by
  induction vs generalizing l with
  | nil => rfl
  | cons v rest ih =>
    have hrest := ih (fun w hw => hvs w (List.mem_cons_of_mem v hw)) (form.put v l)
    rw [list_put (hvs v List.mem_cons_self)] at hrest
    exact hrest

theorem put_put (h : v.key = w.key) (l : List ν) : form.put w (form.put v l) = form.put w l := by
  refine KeyedList.put_put ?_ l
  rw [form.key_write, form.key_write, h]

theorem erase_put_of_ne {k : Key} (h : v.key ≠ k) (l : List ν) :
    form.erase k (form.put v l) = form.put v (form.erase k l) := by
  refine KeyedList.erase_put_of_ne ?_ l
  rw [form.key_write]
  exact mt (form.writeKey_injective v.key k) h

variable {vs ws : List Attribute}

theorem unique_write (h : KeyedList.UniqueKeys Attribute.key vs) :
    form.Unique (vs.map form.write) := by
  have hkeys : (vs.map form.write).map form.key = (vs.map Attribute.key).map form.writeKey := by
    rw [List.map_map, List.map_map]
    exact List.map_congr_left fun v _ => form.key_write v
  rw [Unique, KeyedList.UniqueKeys, hkeys]
  exact List.Pairwise.map form.writeKey (fun j k => mt (form.writeKey_injective j k)) h

/-- The order in which attributes with different keys are put does not matter to the length. -/
theorem length_putAll_perm (hperm : vs.Perm ws) (hvs : KeyedList.UniqueKeys Attribute.key vs)
    {l : List ν} (hl : form.Unique l) :
    (form.putAll vs l).length = (form.putAll ws l).length := by
  have hws : KeyedList.UniqueKeys Attribute.key ws := (hperm.map Attribute.key).nodup_iff.mp hvs
  rw [putAll, putAll, KeyedList.putAll_eq_union hl (unique_write hvs),
    KeyedList.putAll_eq_union hl (unique_write hws)]
  exact (KeyedList.union_perm (hperm.map form.write) (unique_write hvs) l).1.length_eq

end Form

end IRAttributes
