import GameSecurity.AsciiText

/- runtime_config.cpp: the layout of the engine's structures. -/
namespace RuntimeConfig
open AsciiText

structure LayoutConfig where
  values : Text → Option UInt64

def LayoutConfig.get (c : LayoutConfig) (key : Text) : Except Text UInt64 :=
  match c.values key with
  | none => .error (text "missing layout key: " ++ key)
  | some value => .ok value

def defaultValues : List (String × UInt64) :=
  [("button.name", 0x08), ("button.state", 0x30), ("button.next", 0x88),
    ("offset.dwSensitivity_sensitivity", 0x58), ("interface.create_fn", 0x00),
    ("interface.name", 0x08), ("interface.next", 0x10), ("schema_system.type_scopes", 0x190),
    ("schema_system.registration_count", 0x280), ("utl_vector.count", 0x00),
    ("utl_vector.data", 0x08), ("type_scope.name", 0x08), ("type_scope.name_size", 256),
    ("type_scope.class_bindings", 0x560), ("type_scope.enum_bindings", 0x1DD0),
    ("hash.entry_mem", 0x00), ("hash.buckets", 0x60), ("hash.bucket_count", 256),
    ("hash.bucket_stride", 0x18), ("hash.bucket.first_uncommitted", 0x10),
    ("hash_node.next", 0x08), ("hash_node.data", 0x10), ("hash_blob.next", 0x00),
    ("hash_blob.data", 0x10), ("memory_pool.blocks_allocated", 0x0C),
    ("memory_pool.peak_allocated", 0x10), ("memory_pool.free_blocks_head_next", 0x20),
    ("class.name", 0x08), ("class.module_name", 0x18), ("class.field_count", 0x24),
    ("class.metadata_count", 0x26), ("class.fields", 0x30), ("class.base_classes", 0x40),
    ("class.metadata", 0x48), ("base_class_info.class", 0x18), ("base_class.name", 0x10),
    ("field.stride", 0x20), ("field.name", 0x00), ("field.type", 0x08), ("field.offset", 0x10),
    ("schema_type.name", 0x08), ("metadata.stride", 0x10), ("metadata.name", 0x00),
    ("metadata.network_value", 0x08), ("network_value.name_ptr", 0x00),
    ("network_value.var_name", 0x00), ("network_value.var_type", 0x08), ("enum.name", 0x08),
    ("enum.alignment", 0x19), ("enum.enumerator_count", 0x1C), ("enum.enumerators", 0x20),
    ("enumerator.stride", 0x20), ("enumerator.name", 0x00), ("enumerator.value", 0x08)]

def LayoutConfig.defaults : LayoutConfig where
  values key := (defaultValues.find? fun entry => text entry.1 = key).map Prod.snd

end RuntimeConfig
