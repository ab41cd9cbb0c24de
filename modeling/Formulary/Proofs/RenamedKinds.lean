/-
Members, methods, operators and kinds under a renaming.

What bodies ask of values and of kinds takes renamed values and kinds to the renamed
result. With the primitives of the store these are all actions that a body has.
-/

import Formulary.Proofs.RenamedCalls

namespace Formulary

open Action (Alike)

variable {σ : Renaming} {margin : Margin}

/-! ### Fields and elements -/

namespace Member

/-- What a value holds under a name, from two stores alike. -/
theorem found_alike {s t : Store} (renamed : Store.Renamed σ s t) (receiver : Value)
    (name : String) :
    Alike σ margin (Value.rename σ)
      (match s.member? receiver name with
        | some value => pure value
        | none => Action.fail (.noField name receiver.typeName))
      (match t.member? (receiver.rename σ) name with
        | some value => pure value
        | none => Action.fail (.noField name (receiver.rename σ).typeName)) := by
  rw [renamed.member?, Value.typeName_rename]
  cases s.member? receiver name with
  | none => exact .throw _
  | some value => exact .pure rfl

theorem read_alike (receiver : Value) (name : String) :
    Alike σ margin (Value.rename σ) (read receiver name) (read (receiver.rename σ) name) := by
  refine .get fun s t renamed => ?_
  have found : Alike σ margin (Value.rename σ) _ _ := found_alike renamed receiver name
  have counted (r : Ref) : Alike σ margin (Value.rename σ)
      (pure (.int (s.items r).size)) (pure (.int (t.items (σ.ref r)).size)) := by
    rw [renamed.items, Array.size_map]
    exact .pure rfl
  cases receiver with
  | null => exact .throw _
  | object kind r =>
    cases kind with
    | list | tuple =>
      by_cases length : name = "length"
      · subst length
        exact counted r
      · simp only [Value.object.injEq, true_and, length, imp_self, implies_true, Value.rename]
        exact found
    | _ => exact found
  | _ => exact found

theorem write_alike (receiver : Value) (name : String) (value : Value) :
    Alike σ margin id (write receiver name value)
      (write (receiver.rename σ) name (value.rename σ)) := by
  have shared : Alike σ margin id
      (if receiver.isOpen then modify fun store => store.set receiver name value
        else if receiver.isSealed then Action.refuse .wrongType
        else Action.fail (.fixedField name receiver.typeName))
      (if (receiver.rename σ).isOpen then
          modify fun store => store.set (receiver.rename σ) name (value.rename σ)
        else if (receiver.rename σ).isSealed then Action.refuse .wrongType
        else Action.fail (.fixedField name (receiver.rename σ).typeName)) := by
    rw [Value.isOpen_rename, Value.isSealed_rename, Value.typeName_rename]
    split
    · next opened => exact .setMember opened name value
    · split
      · exact .throw _
      · exact .throw _
  cases receiver with
  | null => exact .throw _
  | object kind r =>
    cases kind with
    | record type =>
      refine .get fun s t renamed => ?_
      simp only [renamed.members, assign_rename]
      exact .write r (.record _)
    | _ => exact shared
  | _ => exact shared

end Member

namespace Place

theorem load_alike (container index : Value) :
    Alike σ margin (Value.rename σ) (load container index)
      (load (container.rename σ) (index.rename σ)) := by
  unfold load
  rw [Value.typeName_rename]
  simp only [Value.rename_eq_null]
  split
  · exact .throw _
  · refine .get fun s t renamed => ?_
    rw [renamed.elements?]
    cases elements? s container with
    | none => exact .throw _
    | some values =>
      refine .bind (f := id) (.ofExcept ?_) fun place => .pure (getD_rename values place).symm
      rw [check_rename, Array.size_map, id_map]

theorem store_alike (container index value : Value) :
    Alike σ margin id (store container index value)
      (store (container.rename σ) (index.rename σ) (value.rename σ)) := by
  refine .bind (load_alike container index) fun _ => ?_
  rw [Value.integer?_rename, Value.typeName_rename]
  cases container with
  | object kind r =>
    cases kind with
    | list =>
      cases index.integer? with
      | none => exact .throw _
      | some i =>
        refine .get fun s t renamed => ?_
        simp only [renamed.items, ← Array.map_setIfInBounds]
        exact .write r (.items _)
    | _ => exact .throw _
  | _ => exact .throw _

end Place

/-! ### Methods that every value may have -/

namespace Method

theorem missing_alike {α β : Type} (f : α → β) (signature : String) (receiver : Value) :
    Alike σ margin f (missing signature receiver)
      (missing signature (receiver.rename σ)) := by
  rw [missing, missing, Value.typeName_rename]
  exact .throw _

theorem textOf_alike (signature : String) (receiver : Value) :
    Alike σ margin id (textOf signature receiver)
      (textOf signature (receiver.rename σ)) := by
  unfold textOf
  rw [Value.text?_rename]
  cases receiver.text? with
  | none => exact missing_alike _ signature receiver
  | some codes => exact .pure rfl

theorem sizeOf_alike (signature : String) (receiver : Value) :
    Alike σ margin id (sizeOf signature receiver)
      (sizeOf signature (receiver.rename σ)) := by
  refine .get fun s t renamed => ?_
  rw [renamed.size?]
  cases size? s receiver with
  | none => exact missing_alike _ _ _
  | some size => exact .pure rfl

theorem substringFrom_alike (text : Codes) (start : Value) :
    Alike σ margin (Value.rename σ) (substringFrom text start)
      (substringFrom text (start.rename σ)) := by
  have above : atMost (.int 0) (start.rename σ) = atMost (.int 0) start :=
    atMost_rename σ (.int 0) start
  have below : atMost (start.rename σ) (.int text.length) = atMost start (.int text.length) :=
    atMost_rename σ start (.int text.length)
  unfold substringFrom
  rw [above, below, cutPlace_rename]
  refine .bind (f := id) (.ofExcept (id_map _).symm) fun good => ?_
  cases good with
  | true => exact .bind (f := id) (.ofExcept (id_map _).symm) fun place => .pure rfl
  | false =>
    refine .bind (f := id) (.consult fun s t renamed => ?_) fun shown => .throw _
    rw [renamed.plainText, id_map]

theorem substring_alike (text : Codes) (start stop : Value) :
    Alike σ margin (Value.rename σ) (substring text start stop)
      (substring text (start.rename σ) (stop.rename σ)) := by
  have above : atMost (.int 0) (start.rename σ) = atMost (.int 0) start :=
    atMost_rename σ (.int 0) start
  have below : atMost (stop.rename σ) (.int text.length) = atMost stop (.int text.length) :=
    atMost_rename σ stop (.int text.length)
  unfold substring
  rw [above, below, atMost_rename, cutPlace_rename, cutPlace_rename]
  refine .bind (f := id) (.ofExcept (id_map _).symm) fun good => ?_
  cases good with
  | true =>
    exact .bind (f := id) (.ofExcept (id_map _).symm) fun first =>
      .bind (f := id) (.ofExcept (id_map _).symm) fun last => .pure rfl
  | false =>
    refine .bind (f := id) (.consult fun s t renamed => ?_) fun first =>
      .bind (f := id) (.consult fun s t renamed => ?_) fun last => .throw _
    · rw [renamed.plainText, id_map]
    · rw [renamed.plainText, id_map]

/-- The place of an element among the elements of an object. -/
theorem placeAmong_alike (item : Value) (r : Ref) :
    Alike σ margin id
      (do
        match ← Action.consult fun store =>
          Sequence.place? store.equals item (store.items r).toList with
        | some place => return (place : Int)
        | none => return -1)
      (do
        match ← Action.consult fun store =>
          Sequence.place? store.equals (item.rename σ)
            (store.items (σ.ref r)).toList with
        | some place => return (place : Int)
        | none => return -1) := by
  refine .bind (f := id) (.consult fun s t renamed => ?_) fun found => ?_
  · rw [renamed.items, Array.toList_map, Sequence.place?_rename renamed.equals, id_map]
  · cases found with
    | none => exact .pure rfl
    | some place => exact .pure rfl

theorem placeOf_alike (receiver item : Value) :
    Alike σ margin id (placeOf receiver item)
      (placeOf (receiver.rename σ) (item.rename σ)) := by
  unfold placeOf
  rw [Value.text?_rename]
  cases receiver.text? with
  | some text =>
    refine .bind (Display.text_alike item) fun shown => ?_
    cases found : Text.Search.find? shown text with
    | none => simp only [id, found]; exact .pure rfl
    | some place => simp only [id, found]; exact .pure rfl
  | none =>
    have refused : Alike σ margin id (missing "indexOf" receiver : Action Int)
        (missing "indexOf" (receiver.rename σ)) := missing_alike _ _ _
    cases receiver with
    | object kind r =>
      cases kind with
      | list | tuple => exact placeAmong_alike item r
      | _ => exact refused
    | _ => exact refused

theorem contains_alike (receiver item : Value) :
    Alike σ margin id (contains receiver item)
      (contains (receiver.rename σ) (item.rename σ)) := by
  unfold contains
  rw [Value.text?_rename]
  cases receiver.text? with
  | some text => exact .bind (Display.text_alike item) fun shown => .pure rfl
  | none =>
    have elements (r : Ref) : Alike σ margin id
        (Action.consult fun store =>
          Store.holds store.same item (store.items r).toList)
        (Action.consult fun store =>
          Store.holds store.same (item.rename σ) (store.items (σ.ref r)).toList) :=
      .consult fun s t renamed => by
        rw [renamed.items, Array.toList_map, Store.holds_rename renamed.same, id_map]
    have key (r : Ref) : Alike σ margin id
        (do return (← Mapping.find? r item).isSome)
        (do return (← Mapping.find? (σ.ref r) (item.rename σ)).isSome) :=
      .bind (Mapping.find?_alike r item) fun found => .pure (by cases found <;> rfl)
    have refused : Alike σ margin id (missing "contains" receiver : Action Bool)
        (missing "contains" (receiver.rename σ)) := missing_alike _ _ _
    cases receiver with
    | object kind r =>
      cases kind with
      | list | tuple => exact elements r
      | map => exact key r
      | keys =>
        exact .bind (f := σ.ref) (.read fun s t renamed => renamed.viewed r) key
      | set => exact SetOf.asks_alike r item
      | _ => exact refused
    | _ => exact refused

theorem element_alike (receiver index : Value) :
    Alike σ margin (Value.rename σ) (element receiver index)
      (element (receiver.rename σ) (index.rename σ)) := by
  refine .get fun s t renamed => ?_
  rw [renamed.elements?]
  cases Place.elements? s receiver with
  | none => exact missing_alike _ _ _
  | some values =>
    refine .bind (f := id) (.ofExcept ?_) fun place => .pure (getD_rename values place).symm
    rw [Place.check_rename, Array.size_map, id_map]

theorem replace_alike (receiver index value : Value) :
    Alike σ margin (Value.rename σ) (replace receiver index value)
      (replace (receiver.rename σ) (index.rename σ) (value.rename σ)) := by
  have refused : Alike σ margin (Value.rename σ) (missing "set" receiver)
      (missing "set" (receiver.rename σ)) := missing_alike _ _ _
  cases receiver with
  | object kind r =>
    cases kind with
    | list =>
      refine .get fun s t renamed => ?_
      simp only [renamed.items, Array.size_map, Place.check_rename]
      refine .bind (f := id) (.ofExcept (id_map _).symm) fun place => ?_
      simp only [id, ← Array.map_setIfInBounds, getD_rename]
      exact .bind (.write r (.items _)) fun _ => .pure rfl
    | _ => exact refused
  | _ => exact refused

theorem mapOf_alike (signature : String) (receiver : Value) :
    Alike σ margin σ.ref (mapOf signature receiver)
      (mapOf signature (receiver.rename σ)) := by
  have refused : Alike σ margin σ.ref (missing signature receiver)
      (missing signature (receiver.rename σ)) := missing_alike _ _ _
  cases receiver with
  | object kind r =>
    cases kind with
    | map => exact .pure rfl
    | _ => exact refused
  | _ => exact refused

theorem unboxed_alike (type : Primitive) (receiver : Value) :
    Alike σ margin (Value.rename σ) (unboxed type receiver)
      (unboxed type (receiver.rename σ)) := by
  unfold unboxed
  rw [Arithmetic.truth_rename, Value.isNumeric_rename]
  split
  · refine .ofExcept ?_
    rw [map_bind]
    rfl
  · split
    · exact .ofResult (Primitive.cast_rename σ type receiver)
    · exact missing_alike _ _ _

/-- Two methods that are both there and do the same, or both missing. -/
def MaybeAlike (σ : Renaming) (margin : Margin) (a b : Option (Action Value)) : Prop :=
  match a, b with
  | some a, some b => Alike σ margin (Value.rename σ) a b
  | none, none => True
  | _, _ => False

theorem callPlain?_alike (receiver : Value) (name : String) :
    MaybeAlike σ margin (callPlain? receiver name) (callPlain? (receiver.rename σ) name) := by
  have sort (sort : Double → Bool) (blind : ∀ x : Double, sort (x.rename σ) = sort x) :
      Alike σ margin (Value.rename σ)
        (Action.ofExcept do
          return .bool (sort (← (← Number.ofValue receiver).toDouble)))
        (Action.ofExcept do
          return .bool (sort (← (← Number.ofValue (receiver.rename σ)).toDouble))) :=
    .ofExcept (Primitive.isOfSort_rename σ sort blind receiver)
  unfold callPlain?
  split
  · refine .bind (f := id) (.consult fun s t renamed => ?_) fun code => .pure rfl
    rw [renamed.hash, id_map]
  · exact .bind (Display.text_alike receiver) fun shown => .pure rfl
  · exact sort _ (Double.isNaN_rename σ)
  · exact sort _ (Double.isInfinite_rename σ)
  · exact .bind (textOf_alike _ receiver) fun text => .pure rfl
  · exact .bind (textOf_alike _ receiver) fun text => .pure rfl
  · exact .bind (textOf_alike _ receiver) fun text => .pure rfl
  · exact .bind (textOf_alike _ receiver) fun text => .pure rfl
  · exact .bind (sizeOf_alike _ receiver) fun size => .pure rfl
  · exact .bind (sizeOf_alike _ receiver) fun size => .pure rfl
  · refine .get fun s t renamed => ?_
    rw [renamed.start?]
    cases Cursor.start? s receiver with
    | none => exact missing_alike _ _ _
    | some cursor => exact Iteration.newIterator_alike cursor
  · exact .bind (mapOf_alike _ receiver) fun r => .create .keys (.keysOf r)
  · cases valueMethod? name with
    | none => trivial
    | some type => exact unboxed_alike type receiver

theorem callOne?_alike (receiver : Value) (name : String) (arg : Value) :
    MaybeAlike σ margin (callOne? receiver name arg)
      (callOne? (receiver.rename σ) name (arg.rename σ)) := by
  unfold callOne?
  split
  · refine .bind (f := id) (.consult fun s t renamed => ?_) fun equal => .pure rfl
    rw [renamed.equals, id_map]
  · refine .bind (f := id) (.ofExcept ?_) fun order => .pure rfl
    rw [order_rename, id_map]
  · refine .bind (textOf_alike _ receiver) fun text =>
      .bind (f := id) (.ofExcept ?_) fun place => .pure rfl
    rw [Place.check_rename, id_map]
    rfl
  · exact .bind (textOf_alike _ receiver) fun text => substringFrom_alike text arg
  · refine .bind (textOf_alike _ receiver) fun text =>
      .bind (f := id) (.consult fun s t renamed => ?_) fun found => .pure rfl
    exact (renamed.begins text [arg]).trans (id_map _).symm
  · refine .bind (textOf_alike _ receiver) fun text =>
      .bind (f := id) (.consult fun s t renamed => ?_) fun found => .pure rfl
    exact (renamed.ends text arg).trans (id_map _).symm
  · exact .bind (textOf_alike _ receiver) fun front =>
      .bind (textOf_alike _ arg) fun behind => .pure rfl
  · simp only [Value.text?_rename]
    cases arg.text? with
    | none => exact .pure rfl
    | some other => exact .bind (textOf_alike _ receiver) fun text => .pure rfl
  · exact .bind (placeOf_alike receiver arg) fun place => .pure rfl
  · exact .bind (contains_alike receiver arg) fun found => .pure rfl
  · exact element_alike receiver arg
  · have refused : Alike σ margin (Value.rename σ) (missing "add" receiver)
        (missing "add" (receiver.rename σ)) := missing_alike _ _ _
    cases receiver with
    | object kind r =>
      cases kind with
      | list =>
        refine .get fun s t renamed => ?_
        simp only [renamed.items, ← Array.map_push]
        exact .bind (.write r (.items _)) fun _ => .pure rfl
      | _ => exact refused
    | _ => exact refused
  · exact .bind (mapOf_alike _ receiver) fun r =>
      .bind (Mapping.find?_alike r arg) fun found => .pure (by cases found <;> rfl)
  · trivial

theorem callTwo?_alike (receiver : Value) (name : String) (first second : Value) :
    MaybeAlike σ margin (callTwo? receiver name first second)
      (callTwo? (receiver.rename σ) name (first.rename σ) (second.rename σ)) := by
  unfold callTwo?
  split
  · exact .bind (textOf_alike _ receiver) fun text => substring_alike text first second
  · exact replace_alike receiver first second
  · exact .bind (mapOf_alike _ receiver) fun r =>
      .bind (Mapping.find?_alike r first) fun previous =>
        .bind (Mapping.put_alike r first second) fun _ =>
          .pure (by cases previous <;> rfl)
  · exact .bind (mapOf_alike _ receiver) fun r =>
      .bind (Mapping.find?_alike r first) fun found => .pure (by cases found <;> rfl)
  · trivial

theorem builtin?_alike (receiver : Value) (name : String) (args : List Value) :
    MaybeAlike σ margin (builtin? receiver name args)
      (builtin? (receiver.rename σ) name (args.map (·.rename σ))) := by
  match args with
  | [] => exact callPlain?_alike receiver name
  | [arg] => exact callOne?_alike receiver name arg
  | [first, second] => exact callTwo?_alike receiver name first second
  | _ :: _ :: _ :: _ => trivial

theorem invoke_alike (receiver : Value) (name : String) (args : List Value) :
    Alike σ margin (Value.rename σ) (invoke receiver name args)
      (invoke (receiver.rename σ) name (args.map (·.rename σ))) := by
  unfold invoke
  simp only [Value.rename_eq_null, Value.typeName_rename, List.length_map]
  split
  · exact .throw _
  · refine .get fun s t renamed => ?_
    have own : (t.member? (receiver.rename σ) name).filter Value.isCallable =
        ((s.member? receiver name).filter Value.isCallable).map (·.rename σ) := by
      rw [renamed.member?]
      cases s.member? receiver name with
      | none => rfl
      | some value =>
        simp only [Option.map_some, Option.filter_some, Value.isCallable_rename]
        split <;> rfl
    simp only [own]
    cases (s.member? receiver name).filter Value.isCallable with
    | some method => exact Host.call_alike method args
    | none =>
      have builtins : MaybeAlike σ margin _ _ := builtin?_alike receiver name args
      revert builtins
      simp only [Option.map_none]
      generalize builtin? receiver name args = a
      generalize builtin? (receiver.rename σ) name (args.map (·.rename σ)) = b
      intro builtins
      cases a with
      | none =>
        cases b with
        | none => exact .throw _
        | some => exact builtins.elim
      | some =>
        cases b with
        | none => exact builtins.elim
        | some => exact builtins

end Method

/-! ### Operators -/

namespace Operation

theorem binary_alike (op : BinaryOp) (left right : Value) :
    Alike σ margin (Value.rename σ) (binary op left right)
      (binary op (left.rename σ) (right.rename σ)) := by
  unfold binary
  rw [Value.isString_rename, Value.isString_rename]
  split
  · exact .bind (Display.text_alike left) fun front =>
      .bind (Display.text_alike right) fun behind => .pure rfl
  · exact .ofResult (onValues_rename σ op left right)

theorem unary_alike (op : UnaryOp) (value : Value) :
    Alike σ margin (Value.rename σ) (unary op value) (unary op (value.rename σ)) :=
  .ofResult (Arithmetic.unary_rename σ op value)

end Operation

/-! ### What types offer -/

namespace Primitive

theorem order_alike (type : Primitive) (left right : Value) :
    Alike σ margin (Value.rename σ) (type.order left right)
      (type.order (left.rename σ) (right.rename σ)) := by
  unfold order
  split
  · refine .bind (f := id) (.consult fun s t renamed => ?_) fun above =>
      .bind (f := id) (.consult fun s t renamed => ?_) fun below => .pure rfl
    · rw [renamed.before, id_map]
    · rw [renamed.before, id_map]
  · refine .ofExcept ?_
    simp only [convert_rename, Number.ofValue_rename, map_bind, bind_map_left,
      Number.compare?_rename, map_pure, Value.rename]

theorem callStatic_alike (type : Primitive) (name : String) (args : List Value) :
    Alike σ margin (Value.rename σ) (type.callStatic name args)
      (type.callStatic name (args.map (·.rename σ))) := by
  match args with
  | [] | _ :: _ :: _ :: _ => exact .throw _
  | [value] =>
    simp only [callStatic, List.map_cons, List.map_nil, Value.text?_rename]
    split
    · split
      · exact .ofResult (parse_rename σ type value)
      · exact .ofResult (convert_rename σ type value)
    · split
      · exact .ofResult (parse_rename σ type value)
      · split
        · exact .bind (.ofExcept (convert_rename σ type value)) fun converted =>
            .bind (Display.text_alike converted) fun shown => .pure rfl
        · split
          · split
            · exact .ofExcept (isOfSort_rename σ _ (Double.isNaN_rename σ) value)
            · exact .ofExcept (isOfSort_rename σ _ (Double.isInfinite_rename σ) value)
            · exact .ofExcept (isOfSort_rename σ _ (Double.isFinite_rename σ) value)
            · exact .throw _
          · exact .throw _
  | [left, right] =>
    simp only [callStatic, List.map_cons, List.map_nil]
    split
    · exact order_alike type left right
    · split
      · exact .ofResult (ofTwo_rename σ type name left right)
      · exact .throw _

end Primitive

namespace StringKind

theorem textOfEach_alike (values : List Value) :
    Alike σ margin id (textOfEach values) (textOfEach (values.map (·.rename σ))) := by
  induction values with
  | nil => exact .pure rfl
  | cons value rest ih =>
    exact .bind (Display.text_alike value) fun text => .bind ih fun texts => .pure rfl

theorem joined_alike (separator : Value) (values : List Value) :
    Alike σ margin (Value.rename σ) (joined separator values)
      (joined (separator.rename σ) (values.map (·.rename σ))) := by
  refine .bind (Display.text_alike separator) fun shown => ?_
  have texts (values : List Value) : Alike σ margin (Value.rename σ)
      (do return .str (Text.Search.joined shown (← textOfEach values)))
      (do return .str (Text.Search.joined shown (← textOfEach (values.map (·.rename σ))))) :=
    .bind (textOfEach_alike values) fun texts => .pure rfl
  match values with
  | [] => exact texts []
  | first :: second :: rest => exact texts (first :: second :: rest)
  | [value] =>
    simp only [List.map_cons, List.map_nil, Value.text?_rename]
    split
    · exact texts [value]
    · exact .bind (Iteration.all_alike value) texts

theorem filled_alike (template : Value) (values : List Value) :
    Alike σ margin (Value.rename σ) (filled template values)
      (filled (template.rename σ) (values.map (·.rename σ))) := by
  refine .bind (Display.text_alike template) fun shown =>
    .bind (f := id) (.consult fun s t renamed => ?_) fun text => .pure rfl
  exact (renamed.template _ _ values).trans (id_map _).symm

theorem callStatic_alike (name : String) (args : List Value) :
    Alike σ margin (Value.rename σ) (callStatic name args)
      (callStatic name (args.map (·.rename σ))) := by
  unfold callStatic
  split
  · next value => exact .bind (Display.text_alike value) fun shown => .pure rfl
  · next separator values => exact joined_alike separator values
  · next template values => exact filled_alike template values
  · rcases args with _ | ⟨first, _ | ⟨second, rest⟩⟩ <;> simp_all <;> exact .throw _

end StringKind

namespace Kind

theorem callStatic_alike (kind : Kind) (name : String) (args : List Value) :
    Alike σ margin (Value.rename σ) (kind.callStatic name args)
      ((kind.rename σ).callStatic name (args.map (·.rename σ))) := by
  have member (kind : Kind) : Alike σ margin (Value.rename σ)
      (do
        let member ← Action.consult fun store => kind.getStatic store name
        if member.isCallable then Host.call member args
        else Action.fail (.notMethod kind.name name))
      (do
        let member ← Action.consult fun store => (kind.rename σ).getStatic store name
        if member.isCallable then Host.call member (args.map (·.rename σ))
        else Action.fail (.notMethod (kind.rename σ).name name)) := by
    refine .bind (f := Value.rename σ) (.consult fun _ _ renamed => renamed.getStatic kind name)
      fun member => ?_
    rw [Value.isCallable_rename, name_rename]
    split
    · exact Host.call_alike member args
    · exact .throw _
  cases kind with
  | core type =>
    cases type with
    | boxed type => exact Primitive.callStatic_alike type name args
    | string => exact StringKind.callStatic_alike name args
    | primitive | object => exact .throw _
  | number => exact member .number
  | host name target isAbstract => exact member (.host name target isAbstract)

theorem instantiate_alike (kind : Kind) (args : List Value) :
    Alike σ margin (Value.rename σ) (kind.instantiate args)
      ((kind.rename σ).instantiate (args.map (·.rename σ))) := by
  cases kind with
  | core type =>
    cases type with
    | boxed type =>
      match args with
      | [] | _ :: _ :: _ => exact .throw _
      | [value] => exact Primitive.callStatic_alike type "valueOf" [value]
    | object =>
      match args with
      | [] => exact .create .bare .bare
      | _ :: _ => exact .throw _
    | string =>
      match args with
      | [] => exact .pure rfl
      | [value] => exact .bind (Display.text_alike value) fun shown => .pure rfl
      | _ :: _ :: _ => exact .throw _
    | primitive => exact .throw _
  | number => exact .throw _
  | host name target isAbstract =>
    simp only [rename_host, instantiate, Value.isCallable_rename]
    split
    · exact .throw _
    · exact Host.call_alike target args

theorem invoke_alike (kind : Kind) (args : List Value) :
    Alike σ margin (Value.rename σ) (kind.invoke args)
      ((kind.rename σ).invoke (args.map (·.rename σ))) := by
  have called (kind : Kind) : Alike σ margin (Value.rename σ)
      (if kind.toValue.isCallable then Host.call kind.toValue args
        else Action.fail (.notCallable kind.name))
      (if (kind.rename σ).toValue.isCallable then
          Host.call (kind.rename σ).toValue (args.map (·.rename σ))
        else Action.fail (.notCallable (kind.rename σ).name)) := by
    rw [toValue_rename, Value.isCallable_rename, name_rename]
    split
    · exact Host.call_alike kind.toValue args
    · exact .throw _
  cases kind with
  | core type => exact .throw _
  | number => exact called .number
  | host name target isAbstract => exact called (.host name target isAbstract)

end Kind

/-! ### What types do -/

namespace Dispatch

theorem find_alike (kind : Kind) (operation : KindOperation) :
    Alike σ margin (Option.map (·.rename σ)) (find kind operation)
      (find (kind.rename σ) operation) :=
  .read fun _ _ renamed => renamed.override? kind operation

theorem perform_alike (found : Option Value) {args args' : Action (List Value)}
    {own own' : Action Value}
    (givenAlike : Alike σ margin (List.map (·.rename σ)) args args')
    (ownAlike : Alike σ margin (Value.rename σ) own own') :
    Alike σ margin (Value.rename σ) (perform found args own)
      (perform (found.map (·.rename σ)) args' own') := by
  cases found with
  | none => exact ownAlike
  | some member => exact .bind givenAlike fun args => Host.call_alike member args

theorem isInstance_alike (kind : Kind) (value : Value) :
    Alike σ margin (Value.rename σ) (isInstance kind value)
      (isInstance (kind.rename σ) (value.rename σ)) := by
  refine .bind (find_alike kind .isInstance) fun found =>
    perform_alike found (.pure rfl) (.ofExcept ?_)
  rw [Kind.isInstance_rename, map_bind]
  rfl

theorem ownCast_alike (kind : Kind) (value : Value) :
    Alike σ margin (Value.rename σ) (ownCast kind value)
      (ownCast (kind.rename σ) (value.rename σ)) := by
  refine .bind (find_alike kind .isInstance) fun found => ?_
  cases found with
  | none => exact .ofResult (Kind.cast_rename σ kind value)
  | some member =>
    simp only [Option.map_some, Value.rename_eq_null, Value.typeName_rename,
      Kind.name_rename]
    split
    · exact .pure rfl
    · refine .bind (Host.call_alike member [value]) fun answer => .get fun s t renamed => ?_
      rw [renamed.isTruthy]
      split
      · exact .pure rfl
      · exact .throw _

theorem cast_alike (found : Option Value) (kind : Kind) (value : Value) :
    Alike σ margin (Value.rename σ) (cast found kind value)
      (cast (found.map (·.rename σ)) (kind.rename σ) (value.rename σ)) :=
  perform_alike found (.pure rfl) (ownCast_alike kind value)

theorem convert_alike (found : Option Value) (kind : Kind) (value : Value) :
    Alike σ margin (Value.rename σ) (convert found kind value)
      (convert (found.map (·.rename σ)) (kind.rename σ) (value.rename σ)) :=
  perform_alike found (.pure rfl) (.ofResult (Kind.convert_rename σ kind value))

theorem convertResult_alike (kind : Kind) (value : Value) :
    Alike σ margin (Value.rename σ) (convertResult kind value)
      (convertResult (kind.rename σ) (value.rename σ)) := by
  have converted : Alike σ margin (Value.rename σ) (Action.ofResult (kind.convert value))
      (Action.ofResult ((kind.rename σ).convert (value.rename σ))) :=
    .ofResult (Kind.convert_rename σ kind value)
  have casts : Alike σ margin (Value.rename σ)
      (do cast (← find kind .cast) kind value)
      (do cast (← find (kind.rename σ) .cast) (kind.rename σ) (value.rename σ)) :=
    .bind (find_alike kind .cast) fun found => cast_alike found kind value
  cases kind with
  | core type =>
    cases type with
    | primitive | boxed => exact converted
    | object | string => exact casts
  | number | host => exact casts

theorem asValue_alike (kind : Kind) :
    Alike σ margin (Value.rename σ) (asValue kind) (asValue (kind.rename σ)) := by
  refine .bind (find_alike kind .asValue) fun found =>
    perform_alike found (.pure rfl) (.pure ?_)
  rw [Kind.toValue_rename]

theorem getStatic_alike (kind : Kind) (name : String) :
    Alike σ margin (Value.rename σ) (getStatic kind name)
      (getStatic (kind.rename σ) name) :=
  .bind (find_alike kind .getStatic) fun found =>
    perform_alike found (.pure rfl) (.consult fun _ _ renamed => renamed.getStatic kind name)

theorem packed_alike (args : List Value) :
    Alike σ margin (Value.rename σ) (packed args) (packed (args.map (·.rename σ))) := by
  rw [packed, packed, ← List.map_toArray]
  exact .newList _

theorem callStatic_alike (kind : Kind) (name : String) (args : List Value) :
    Alike σ margin (Value.rename σ) (callStatic kind name args)
      (callStatic (kind.rename σ) name (args.map (·.rename σ))) :=
  .bind (find_alike kind .callStatic) fun found =>
    perform_alike found (.bind (packed_alike args) fun _ => .pure rfl)
      (Kind.callStatic_alike kind name args)

theorem instantiate_alike (found : Option Value) (kind : Kind) (args : List Value) :
    Alike σ margin (Value.rename σ) (instantiate found kind args)
      (instantiate (found.map (·.rename σ)) (kind.rename σ) (args.map (·.rename σ))) :=
  perform_alike found (.bind (packed_alike args) fun _ => .pure rfl)
    (Kind.instantiate_alike kind args)

theorem invoke_alike (found : Option Value) (kind : Kind) (args : List Value) :
    Alike σ margin (Value.rename σ) (invoke found kind args)
      (invoke (found.map (·.rename σ)) (kind.rename σ) (args.map (·.rename σ))) :=
  perform_alike found (.bind (packed_alike args) fun _ => .pure rfl)
    (Kind.invoke_alike kind args)

end Dispatch

end Formulary
