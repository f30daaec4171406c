/-
# The schema of a catalog in a database

A catalog has one table for each kind of row.  What is here are the names by which
statements speak of tables and columns, and the script that sets the tables up.
The script can be run again on tables that are set up already.
-/

import VariantCatalog.Entity.Id

namespace VariantCatalog.Sql

/-- The table of a kind of row. -/
def tableName : EntityKind → String
  | .root => "product_roots"
  | .option => "product_options"
  | .value => "product_option_values"
  | .product => "products"
  | .bridge => "product_variant_bridge"

/-- The word for a kind of row in the names of steps. -/
def stepWord : EntityKind → String
  | .root => "product_root"
  | .option => "product_option"
  | .value => "product_option_value"
  | .product => "product"
  | .bridge => "variant_bridge"

/-- The columns of some measurements. -/
def dimensionColumns (subject : String) : List String :=
  [subject ++ "_weight", subject ++ "_height", subject ++ "_width", subject ++ "_length"]

/-- The columns of the lifecycle of a row. -/
def lifecycleColumns : List String := ["created_on", "updated_on", "archived_on"]

/-- The columns that hold measurements. -/
def measurementColumns : List String := dimensionColumns "product" ++ dimensionColumns "package"

/-- The columns that hold integers of four bytes. -/
def smallIntegerColumns : List String := ["quantity", "quantity_per_package"]

/-- The column whose contents may be left to the database. -/
def openColumn : String := "available_on"

/-- The columns that hold moments. -/
def momentColumns : List String := openColumn :: lifecycleColumns

/-- The columns of a kind of row, in the order in which they are asked for. -/
def columnNames : EntityKind → List String
  | .root =>
    ["id", "name", "subtitle", "description", "sku_prefix", "manufacturer", "brand",
      "available_on", "taxable", "cost"] ++
    dimensionColumns "product" ++ dimensionColumns "package" ++ lifecycleColumns
  | .option => ["id", "product_root_id", "name"] ++ lifecycleColumns
  | .value => ["id", "product_option_id", "value"] ++ lifecycleColumns
  | .product =>
    ["id", "product_root_id", "name", "subtitle", "description", "option_summary", "sku", "upc",
      "manufacturer", "brand", "quantity", "quantity_per_package", "taxable", "price", "on_sale",
      "sale_price", "cost"] ++
    dimensionColumns "product" ++ dimensionColumns "package" ++
    "available_on" :: lifecycleColumns
  | .bridge => ["id", "product_id", "product_option_value_id"] ++ lifecycleColumns

/-- The lines of the script that sets the tables up. -/
def schemaLines : List String :=
  ["-- Catalog schema: product roots, options, option values, variants and the",
    "-- variant <-> option value bridge. Rows are archived, never deleted.",
    "CREATE TABLE IF NOT EXISTS product_roots (",
    "id BIGSERIAL PRIMARY KEY,",
    "name TEXT NOT NULL,",
    "subtitle TEXT,",
    "description TEXT NOT NULL DEFAULT '',",
    "sku_prefix TEXT NOT NULL,",
    "manufacturer TEXT,",
    "brand TEXT,",
    "available_on TIMESTAMPTZ NOT NULL DEFAULT NOW(),",
    "taxable BOOLEAN NOT NULL DEFAULT FALSE,",
    "cost BIGINT NOT NULL DEFAULT 0,",
    "product_weight DOUBLE PRECISION NOT NULL DEFAULT 0,",
    "product_height DOUBLE PRECISION NOT NULL DEFAULT 0,",
    "product_width DOUBLE PRECISION NOT NULL DEFAULT 0,",
    "product_length DOUBLE PRECISION NOT NULL DEFAULT 0,",
    "package_weight DOUBLE PRECISION NOT NULL DEFAULT 0,",
    "package_height DOUBLE PRECISION NOT NULL DEFAULT 0,",
    "package_width DOUBLE PRECISION NOT NULL DEFAULT 0,",
    "package_length DOUBLE PRECISION NOT NULL DEFAULT 0,",
    "created_on TIMESTAMPTZ NOT NULL DEFAULT NOW(),",
    "updated_on TIMESTAMPTZ,",
    "archived_on TIMESTAMPTZ,",
    "CONSTRAINT product_roots_sku_prefix_key UNIQUE (sku_prefix)",
    ");",
    "CREATE TABLE IF NOT EXISTS product_options (",
    "id BIGSERIAL PRIMARY KEY,",
    "product_root_id BIGINT NOT NULL",
    "CONSTRAINT product_options_product_root_id_fkey REFERENCES product_roots (id),",
    "name TEXT NOT NULL,",
    "created_on TIMESTAMPTZ NOT NULL DEFAULT NOW(),",
    "updated_on TIMESTAMPTZ,",
    "archived_on TIMESTAMPTZ",
    ");",
    "CREATE UNIQUE INDEX IF NOT EXISTS product_options_root_name_live_idx",
    "ON product_options (product_root_id, name)",
    "WHERE archived_on IS NULL;",
    "CREATE TABLE IF NOT EXISTS product_option_values (",
    "id BIGSERIAL PRIMARY KEY,",
    "product_option_id BIGINT NOT NULL",
    "CONSTRAINT product_option_values_product_option_id_fkey REFERENCES product_options (id),",
    "value TEXT NOT NULL,",
    "created_on TIMESTAMPTZ NOT NULL DEFAULT NOW(),",
    "updated_on TIMESTAMPTZ,",
    "archived_on TIMESTAMPTZ",
    ");",
    "CREATE UNIQUE INDEX IF NOT EXISTS product_option_values_option_value_live_idx",
    "ON product_option_values (product_option_id, value)",
    "WHERE archived_on IS NULL;",
    "CREATE TABLE IF NOT EXISTS products (",
    "id BIGSERIAL PRIMARY KEY,",
    "product_root_id BIGINT NOT NULL",
    "CONSTRAINT products_product_root_id_fkey REFERENCES product_roots (id),",
    "name TEXT NOT NULL,",
    "subtitle TEXT,",
    "description TEXT NOT NULL DEFAULT '',",
    "option_summary TEXT NOT NULL DEFAULT '',",
    "sku TEXT NOT NULL,",
    "upc TEXT,",
    "manufacturer TEXT,",
    "brand TEXT,",
    "quantity INTEGER NOT NULL DEFAULT 0,",
    "quantity_per_package INTEGER NOT NULL DEFAULT 1 CHECK (quantity_per_package >= 1),",
    "taxable BOOLEAN NOT NULL DEFAULT FALSE,",
    "price BIGINT NOT NULL DEFAULT 0,",
    "on_sale BOOLEAN NOT NULL DEFAULT FALSE,",
    "sale_price BIGINT,",
    "cost BIGINT NOT NULL DEFAULT 0,",
    "product_weight DOUBLE PRECISION NOT NULL DEFAULT 0,",
    "product_height DOUBLE PRECISION NOT NULL DEFAULT 0,",
    "product_width DOUBLE PRECISION NOT NULL DEFAULT 0,",
    "product_length DOUBLE PRECISION NOT NULL DEFAULT 0,",
    "package_weight DOUBLE PRECISION NOT NULL DEFAULT 0,",
    "package_height DOUBLE PRECISION NOT NULL DEFAULT 0,",
    "package_width DOUBLE PRECISION NOT NULL DEFAULT 0,",
    "package_length DOUBLE PRECISION NOT NULL DEFAULT 0,",
    "available_on TIMESTAMPTZ NOT NULL DEFAULT NOW(),",
    "created_on TIMESTAMPTZ NOT NULL DEFAULT NOW(),",
    "updated_on TIMESTAMPTZ,",
    "archived_on TIMESTAMPTZ,",
    "CONSTRAINT products_sku_key UNIQUE (sku)",
    ");",
    "CREATE INDEX IF NOT EXISTS products_product_root_id_idx ON products (product_root_id);",
    "CREATE TABLE IF NOT EXISTS product_variant_bridge (",
    "id BIGSERIAL PRIMARY KEY,",
    "product_id BIGINT NOT NULL",
    "CONSTRAINT product_variant_bridge_product_id_fkey REFERENCES products (id),",
    "product_option_value_id BIGINT NOT NULL",
    "CONSTRAINT product_variant_bridge_product_option_value_id_fkey",
    "REFERENCES product_option_values (id),",
    "created_on TIMESTAMPTZ NOT NULL DEFAULT NOW(),",
    "updated_on TIMESTAMPTZ,",
    "archived_on TIMESTAMPTZ",
    ");",
    "CREATE UNIQUE INDEX IF NOT EXISTS product_variant_bridge_product_value_live_idx",
    "ON product_variant_bridge (product_id, product_option_value_id)",
    "WHERE archived_on IS NULL;",
    "CREATE INDEX IF NOT EXISTS product_variant_bridge_value_idx",
    "ON product_variant_bridge (product_option_value_id);"]

/-- The script that sets the tables up. -/
def schemaText : String := " ".intercalate schemaLines

end VariantCatalog.Sql
