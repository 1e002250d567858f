/-
# `Sql.Schema` — the tables

The text that creates the three tables and their indexes where they are missing.
A tenant's name for a relation is unique; its name for a partner is not.
-/

namespace PartnerRelations.Sql

/-- Create what is missing. -/
def schema : String :=
"-- Business partner relations: sharing ledger, relations and their stages.

CREATE TABLE IF NOT EXISTS sharing_states (
    id                  UUID PRIMARY KEY,
    tenant_bpnl         TEXT        NOT NULL,
    external_id         TEXT        NOT NULL,
    sharing_state_type  TEXT        NOT NULL,
    bpnl                TEXT        NULL,
    updated_at          TIMESTAMPTZ NOT NULL
);

-- Not unique: duplicates are reported as ambiguous references by the lookup.
CREATE INDEX IF NOT EXISTS sharing_states_tenant_external_id_idx
    ON sharing_states (tenant_bpnl, external_id);

CREATE TABLE IF NOT EXISTS relations (
    id                      UUID PRIMARY KEY,
    tenant_bpnl             TEXT        NOT NULL,
    external_id             TEXT        NOT NULL,
    version                 BIGINT      NOT NULL CHECK (version > 0),

    sharing_state_type      TEXT        NULL,
    sharing_relation_type   TEXT        NULL,
    sharing_error_message   TEXT        NULL,
    sharing_updated_at      TIMESTAMPTZ NULL,

    output_relation_type    TEXT        NULL,
    output_source_bpnl      TEXT        NULL,
    output_target_bpnl      TEXT        NULL,
    output_updated_at       TIMESTAMPTZ NULL,

    created_at              TIMESTAMPTZ NOT NULL,
    updated_at              TIMESTAMPTZ NOT NULL,

    CONSTRAINT relations_tenant_external_id_key UNIQUE (tenant_bpnl, external_id),
    CONSTRAINT relations_output_distinct CHECK (output_source_bpnl IS NULL OR output_source_bpnl <> output_target_bpnl)
);

CREATE INDEX IF NOT EXISTS relations_tenant_created_idx
    ON relations (tenant_bpnl, created_at, id);

CREATE INDEX IF NOT EXISTS relations_sharing_state_idx
    ON relations (sharing_state_type, sharing_updated_at);

CREATE TABLE IF NOT EXISTS relation_stages (
    relation_id     UUID        NOT NULL REFERENCES relations (id) ON DELETE CASCADE,
    stage           TEXT        NOT NULL,
    relation_type   TEXT        NOT NULL,
    source_id       UUID        NOT NULL REFERENCES sharing_states (id),
    target_id       UUID        NOT NULL REFERENCES sharing_states (id),
    created_at      TIMESTAMPTZ NOT NULL,
    updated_at      TIMESTAMPTZ NOT NULL,

    PRIMARY KEY (relation_id, stage),
    CONSTRAINT relation_stages_distinct CHECK (source_id <> target_id)
);
"

end PartnerRelations.Sql
